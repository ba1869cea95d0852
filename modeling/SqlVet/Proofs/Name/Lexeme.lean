import SqlVet.Proofs.Name.Quotation
import Mathlib.Data.List.Nodup

/-!
# Where lexemes stand

A text is made of lexemes, one after another, and of blanks between them:

* `exists_slice_of_mem_lexemes`: a lexeme stands for a slice of the text, which its span encloses;
* `pairwise_lexemes`: lexemes do not overlap and come in the order of the text;
* `isBlank_or_exists_lexeme`: a character that is not a blank belongs to a lexeme;
* `lex_accountsFor`: so tokens and reports together account for every byte of a text.
-/

namespace SqlVet

/-! ## Bytes

Places are counted in bytes, and texts here are lists of characters.  These lemmas go from one to
the other.
-/

theorem size_utf8Encode (cs : List Char) : cs.utf8Encode.size = byteLength cs := by
  induction cs with
  | nil => rfl
  | cons c cs ih =>
    rw [List.utf8Encode_cons, ByteArray.size_append, ih, List.utf8Encode_singleton,
      List.size_toByteArray, String.length_utf8EncodeChar, byteLength_cons]

theorem utf8ByteSize_ofList (cs : List Char) : (String.ofList cs).utf8ByteSize = byteLength cs := by
  rw [String.utf8ByteSize, String.toByteArray_ofList, size_utf8Encode]

theorem utf8ByteSize_eq (text : String) : text.utf8ByteSize = byteLength text.toList := by
  rw [← utf8ByteSize_ofList, String.ofList_toList]

/-- Every byte belongs to a character. -/
theorem exists_char_of_lt_byteLength {cs : List Char} {i : Nat} (h : i < byteLength cs) :
    ∃ before c after, cs = before ++ c :: after ∧ byteLength before ≤ i
      ∧ i < byteLength before + c.utf8Size := by
  induction cs generalizing i with
  | nil => simp at h
  | cons c cs ih =>
    by_cases hc : i < c.utf8Size
    · exact ⟨[], c, cs, rfl, Nat.zero_le i, by simpa using hc⟩
    · rw [byteLength_cons] at h
      obtain ⟨before, d, after, rfl, hle, hlt⟩ := ih (i := i - c.utf8Size) (by omega)
      refine ⟨c :: before, d, after, rfl, ?_, ?_⟩
      · rw [byteLength_cons]
        omega
      · rw [byteLength_cons]
        omega

/-! ## Lexeme by lexeme

What one cut does, and from it what holds of all lexemes of a text, by induction on how they are cut
off.
-/

variable {offset : Nat} {c : Char} {cs : List Char}

/-- What a lexeme says of its slice: a word is the slice in lower case, and of anything else the
text is the slice. -/
def Lexeme.Spells : Lexeme → List Char → Prop
  | .token (.word name), slice => name = fold slice
  | .token t, slice => t.text = String.ofList slice
  | .stray text, slice => text = String.ofList slice

/-- A lexeme spells what its slice says. -/
theorem spells_cut (c : Char) (cs : List Char) : (cut c cs).lexeme.Spells (cut c cs).slice := by
  unfold cut
  split
  · next h => rw [h]; rfl
  · split
    · next h =>
      split
      · next hquote =>
        rw [h]
        exact quote_unquote hquote
      · rfl
    · split
      · rfl
      · rfl

theorem lexemes_dot (offset : Nat) (rest : List Char) :
    lexemes offset ('.' :: rest) =
      ⟨.token .dot, offset, offset + 1⟩ :: lexemes (offset + 1) rest := by
  rw [lexemes_cons_of_not_blank (by decide)]
  rfl

/-- A lexeme is what the lexer cuts off where it begins. -/
theorem exists_cut_of_mem_lexemes {l : Spanned Lexeme} (h : l ∈ lexemes offset cs) :
    ∃ before c rest, cs = before ++ c :: rest ∧ isBlank c = false
      ∧ l.item = (cut c rest).lexeme ∧ l.span = ⟨offset + byteLength before,
        offset + byteLength before + byteLength (cut c rest).slice⟩ := by
  fun_induction lexemes offset cs with
  | case1 => simp at h
  | case2 offset c cs hblank ih =>
    obtain ⟨before, d, rest, rfl, hd, hitem, hspan⟩ := ih h
    refine ⟨c :: before, d, rest, rfl, hd, hitem, ?_⟩
    rw [hspan, byteLength_cons, Nat.add_assoc]
  | case3 offset c cs hblank first stop ih =>
    rcases List.mem_cons.mp h with rfl | h
    · exact ⟨[], c, cs, rfl, Bool.not_eq_true _ ▸ hblank, rfl, rfl⟩
    · obtain ⟨before, d, rest, hrest, hd, hitem, hspan⟩ := ih h
      refine ⟨first.slice ++ before, d, rest, ?_, hd, hitem, ?_⟩
      · rw [← slice_append_rest c cs, List.append_assoc, ← hrest]
      · rw [hspan, byteLength_append, Nat.add_assoc offset]

/-- Each lexeme spells a slice of the text that is not empty, and its span says where that is. -/
theorem exists_slice_of_mem_lexemes {l : Spanned Lexeme} (h : l ∈ lexemes offset cs) :
    ∃ before slice after, cs = before ++ slice ++ after ∧ slice ≠ [] ∧ l.item.Spells slice
      ∧ l.span = ⟨offset + byteLength before, offset + byteLength before + byteLength slice⟩ := by
  obtain ⟨before, c, rest, rfl, -, hitem, hspan⟩ := exists_cut_of_mem_lexemes h
  refine ⟨before, (cut c rest).slice, (cut c rest).rest, ?_, slice_ne_nil c rest, ?_, hspan⟩
  · rw [List.append_assoc, slice_append_rest]
  · rw [hitem]
    exact spells_cut c rest

/-- Lexemes do not overlap, and come in the order of the text. -/
theorem pairwise_lexemes (offset : Nat) (cs : List Char) :
    (lexemes offset cs).Pairwise fun a b => a.span.stop ≤ b.span.start := by
  fun_induction lexemes offset cs with
  | case1 => exact .nil
  | case2 offset c cs hblank ih => exact ih
  | case3 offset c cs hblank first stop ih =>
    refine List.pairwise_cons.mpr ⟨?_, ih⟩
    intro l hl
    obtain ⟨before, slice, after, -, -, -, hspan⟩ := exists_slice_of_mem_lexemes hl
    rw [hspan]
    exact Nat.le_add_right stop (byteLength before)

/-- A character is a blank or belongs to a lexeme, all of its bytes together. -/
theorem isBlank_or_exists_lexeme (offset : Nat) (cs : List Char) :
    ∀ before c after, cs = before ++ c :: after →
      isBlank c = true ∨ ∃ l ∈ lexemes offset cs, l.span.start ≤ offset + byteLength before
        ∧ offset + byteLength before + c.utf8Size ≤ l.span.stop := by
  fun_induction lexemes offset cs with
  | case1 =>
    intro before c after h
    simp at h
  | case2 offset d cs hblank ih =>
    intro before c after h
    rcases List.cons_eq_append_iff.mp h with ⟨rfl, hcons⟩ | ⟨before, rfl, hcs⟩
    · cases hcons
      exact .inl hblank
    · rw [byteLength_cons, ← Nat.add_assoc]
      exact ih before c after hcs
  | case3 offset d cs hblank first stop ih =>
    intro before c after h
    have hall : first.slice ++ first.rest = before ++ c :: after := by
      rw [← h]
      exact slice_append_rest d cs
    have hlater : ∀ gap, before = first.slice ++ gap → first.rest = gap ++ c :: after →
        isBlank c = true ∨ ∃ l ∈ ⟨first.lexeme, offset, stop⟩ :: lexemes stop first.rest,
          l.span.start ≤ offset + byteLength before
            ∧ offset + byteLength before + c.utf8Size ≤ l.span.stop := by
      intro gap hbefore hrest
      rw [hbefore, byteLength_append, ← Nat.add_assoc]
      rcases ih gap c after hrest with hc | ⟨l, hl, hin⟩
      · exact .inl hc
      · exact .inr ⟨l, List.mem_cons_of_mem _ hl, hin⟩
    -- the slice that is cut first ends before the character, or else the character is in it
    rcases List.append_eq_append_iff.mp hall with ⟨gap, hbefore, hrest⟩ | ⟨gap, hslice, hcons⟩
    · exact hlater gap hbefore hrest
    · rcases List.cons_eq_append_iff.mp hcons with ⟨rfl, hrest⟩ | ⟨gap, rfl, -⟩
      · exact hlater [] (by simpa using hslice.symm) hrest
      · refine .inr ⟨_, List.mem_cons_self, Nat.le_add_right _ _, ?_⟩
        show _ ≤ offset + byteLength first.slice
        rw [hslice, byteLength_append, byteLength_cons]
        omega

/-! ## What lexing a text gives

The tokens and the reports are the lexemes, parted in two lists.  What is shown of a report leads
back to its lexeme.
-/

/-- A span of a text encloses a slice if the slice stands between its two offsets. -/
def Span.Encloses (span : Span) (text slice : String) : Prop :=
  ∃ before after, text = before ++ slice ++ after
    ∧ span = ⟨before.utf8ByteSize, before.utf8ByteSize + slice.utf8ByteSize⟩

namespace Diagnostic

/-- The slice that the report of a stray piece shows: what is between the quotes of its message. -/
def shownSlice (d : Diagnostic) : String :=
  String.ofList (d.message.toList.drop "syntax error at or near \"".length).dropLast

/-- Whether the place of a report is before that of another one. -/
def Before (d e : Diagnostic) : Prop :=
  ∃ i j, d.location = some i ∧ e.location = some j ∧ i < j

theorem Before.asymm {d e : Diagnostic} (h : d.Before e) : ¬ e.Before d := by
  obtain ⟨i, j, hi, hj, hlt⟩ := h
  rintro ⟨j', i', hj', hi', hlt'⟩
  cases hi.symm.trans hi'
  cases hj.symm.trans hj'
  omega

/-- Where the shown slice stands: it begins at the place of the report. -/
def shownSpan? (d : Diagnostic) : Option Span :=
  d.location.map fun start => ⟨start, start + d.shownSlice.utf8ByteSize⟩

/-- An unexpected piece is repeated in its report, between quotes that are not part of it. -/
@[simp] theorem shownSlice_unexpected (slice : String) (location : Option Nat) :
    ((Cause.unexpected slice).diagnostic location).shownSlice = slice := by
  have hmessage : ((Cause.unexpected slice).diagnostic location).message =
      "syntax error at or near \"" ++ slice ++ "\"" := rfl
  rw [shownSlice, hmessage, String.toList_append, String.toList_append, List.append_assoc,
    ← String.length_toList, List.drop_left]
  show String.ofList (slice.toList ++ ['"']).dropLast = slice
  rw [List.dropLast_concat, String.ofList_toList]

end Diagnostic

namespace Lexed

/-- The spans of the tokens and of the reported slices, in the order of the text. -/
def spans (l : Lexed) : List Span :=
  (l.tokens.map Spanned.span ++ l.diagnostics.filterMap Diagnostic.shownSpan?).mergeSort
    fun a b => a.start ≤ b.start

/-- What has been lexed accounts for a text: together with blanks, tokens and reported slices are
the text, each once and in order. -/
structure AccountsFor (l : Lexed) (text : String) : Prop where
  nonempty : ∀ s ∈ l.spans, s.start < s.stop
  disjoint : l.spans.Pairwise fun a b => a.stop ≤ b.start
  /-- Spans begin and end where characters do. -/
  boundaries : ∀ s ∈ l.spans,
    String.Pos.Raw.IsValid text ⟨s.start⟩ ∧ String.Pos.Raw.IsValid text ⟨s.stop⟩
  inside : ∀ s ∈ l.spans, s.stop ≤ text.utf8ByteSize
  tokens_sorted : l.tokens.Pairwise fun a b => a.span.start < b.span.start
  diagnostics_sorted : l.diagnostics.Pairwise Diagnostic.Before
  /-- Bytes outside of the spans are blanks. -/
  blank : ∀ i (h : i < text.toUTF8.size), (∀ s ∈ l.spans, ¬ (s.start ≤ i ∧ i < s.stop)) →
    text.toUTF8[i] ∈ [0x20, 0x09, 0x0d, 0x0a, 0x0c]
  /-- A report shows the slice where it points to. -/
  reported : ∀ d ∈ l.diagnostics,
    d.message = "syntax error at or near \"" ++ d.shownSlice ++ "\""
      ∧ ∃ span, d.shownSpan? = some span ∧ span.Encloses text d.shownSlice
  /-- Tokens are written as they stand in the text, but words in lower case. -/
  written : ∀ t ∈ l.tokens, ∃ slice, t.span.Encloses text slice
    ∧ match t.item with
      | .word _ => t.item.text = slice.map Char.toLower
      | .quoted _ | .dot => t.item.text = slice

end Lexed

theorem mem_tokens_lex {text : String} {t : Spanned Token} (h : t ∈ (lex text).tokens) :
    ⟨.token t.item, t.span⟩ ∈ lexemes 0 text.toList := by
  obtain ⟨l, hl, ht⟩ := List.mem_filterMap.mp h
  match l, ht with
  | ⟨.token item, span⟩, ht =>
    cases ht
    exact hl

theorem mem_diagnostics_lex {text : String} {d : Diagnostic} (h : d ∈ (lex text).diagnostics) :
    ∃ slice span, ⟨.stray slice, span⟩ ∈ lexemes 0 text.toList
      ∧ d = (Cause.unexpected slice).diagnostic (some span.start) := by
  obtain ⟨l, hl, hd⟩ := List.mem_filterMap.mp h
  match l, hd with
  | ⟨.stray slice, span⟩, hd =>
    cases hd
    exact ⟨slice, span, hl, rfl⟩

/-- The span of a lexeme encloses, in the text, the slice that it spells. -/
theorem exists_enclosed_of_mem_lexemes {text : String} {l : Spanned Lexeme}
    (h : l ∈ lexemes 0 text.toList) :
    ∃ slice, slice ≠ [] ∧ l.item.Spells slice ∧ l.span.Encloses text (String.ofList slice) := by
  obtain ⟨before, slice, after, htext, hne, hspells, hspan⟩ := exists_slice_of_mem_lexemes h
  refine ⟨slice, hne, hspells, String.ofList before, String.ofList after, ?_, ?_⟩
  · rw [← String.ofList_append, ← String.ofList_append, ← htext, String.ofList_toList]
  · rw [hspan, utf8ByteSize_ofList, utf8ByteSize_ofList, Nat.zero_add]

/-- A span is as long as what it encloses. -/
theorem Span.Encloses.stop_eq {span : Span} {text slice : String} (h : span.Encloses text slice) :
    span.stop = span.start + slice.utf8ByteSize := by
  obtain ⟨before, after, -, rfl⟩ := h
  rfl

/-- A span that encloses a slice begins and ends between characters, and within the text. -/
theorem Span.Encloses.boundaries {span : Span} {text slice : String}
    (h : span.Encloses text slice) :
    String.Pos.Raw.IsValid text ⟨span.start⟩ ∧ String.Pos.Raw.IsValid text ⟨span.stop⟩
      ∧ span.stop ≤ text.utf8ByteSize := by
  obtain ⟨before, after, rfl, rfl⟩ := h
  refine ⟨?_, ?_, ?_⟩
  · exact String.Pos.Raw.isValid_iff_exists_append.mpr
      ⟨before, slice ++ after, String.append_assoc, rfl⟩
  · refine String.Pos.Raw.isValid_iff_exists_append.mpr ⟨before ++ slice, after, rfl, ?_⟩
    simp [String.Pos.Raw.ext_iff]
  · simp

theorem boundaries_of_mem_lexemes {text : String} {l : Spanned Lexeme}
    (h : l ∈ lexemes 0 text.toList) :
    String.Pos.Raw.IsValid text ⟨l.span.start⟩ ∧ String.Pos.Raw.IsValid text ⟨l.span.stop⟩
      ∧ l.span.stop ≤ text.utf8ByteSize := by
  obtain ⟨slice, -, -, hspan⟩ := exists_enclosed_of_mem_lexemes h
  exact hspan.boundaries

theorem start_lt_stop_of_mem_lexemes {text : String} {l : Spanned Lexeme}
    (h : l ∈ lexemes 0 text.toList) : l.span.start < l.span.stop := by
  obtain ⟨slice, hne, -, hspan⟩ := exists_enclosed_of_mem_lexemes h
  have := byteLength_pos hne
  rw [hspan.stop_eq, utf8ByteSize_ofList]
  omega

/-- The report of a stray piece gives its span away. -/
theorem shownSpan?_of_mem_lexemes {text slice : String} {span : Span}
    (h : ⟨.stray slice, span⟩ ∈ lexemes 0 text.toList) :
    ((Cause.unexpected slice).diagnostic (some span.start)).shownSpan? = some span := by
  obtain ⟨cs, -, hslice, hspan⟩ := exists_enclosed_of_mem_lexemes h
  have hslice : slice = String.ofList cs := hslice
  have hstop : span.stop = span.start + slice.utf8ByteSize := hslice ▸ hspan.stop_eq
  rw [Diagnostic.shownSpan?, Diagnostic.shownSlice_unexpected]
  show some (Span.mk span.start (span.start + slice.utf8ByteSize)) = some span
  rw [← hstop]

/-- The spans of the tokens and those that the reports show are all spans of the lexemes, each
once. -/
theorem spans_perm {ls : List (Spanned Lexeme)}
    (h : ∀ slice span, ⟨.stray slice, span⟩ ∈ ls →
      ((Cause.unexpected slice).diagnostic (some span.start)).shownSpan? = some span) :
    ((ls.filterMap Lexeme.token?).map Spanned.span
      ++ (ls.filterMap Lexeme.diagnostic?).filterMap Diagnostic.shownSpan?).Perm
      (ls.map Spanned.span) := by
  induction ls with
  | nil => exact .nil
  | cons l ls ih =>
    have hls := ih fun slice span hl => h slice span (List.mem_cons_of_mem l hl)
    match l with
    | ⟨.token t, span⟩ => exact hls.cons span
    | ⟨.stray slice, span⟩ =>
      have hspan := h slice span List.mem_cons_self
      simp only [List.filterMap_cons, Lexeme.token?, Lexeme.diagnostic?, hspan, List.map_cons]
      exact List.perm_middle.trans (hls.cons span)

/-- Each lexeme begins behind the beginning of those before it. -/
theorem pairwise_start_lexemes (text : String) :
    (lexemes 0 text.toList).Pairwise fun a b => a.span.start < b.span.start := by
  refine (pairwise_lexemes 0 text.toList).imp_of_mem ?_
  intro a b ha _ hle
  exact Nat.lt_of_lt_of_le (start_lt_stop_of_mem_lexemes ha) hle

/-- Reports come in the order of the text. -/
theorem pairwise_diagnostics_lex (text : String) :
    (lex text).diagnostics.Pairwise Diagnostic.Before := by
  refine (pairwise_start_lexemes text).filterMap Lexeme.diagnostic? ?_
  rintro ⟨_ | _, a⟩ ⟨_ | _, b⟩ hlt d hd e he <;> cases hd <;> cases he
  exact ⟨a.start, b.start, rfl, rfl, hlt⟩

/-- Put in order, the spans of tokens and reports are the spans of the lexemes. -/
theorem spans_lex (text : String) :
    (lex text).spans = (lexemes 0 text.toList).map Spanned.span := by
  let ss := (lexemes 0 text.toList).map Spanned.span
  have hperm : (lex text).spans.Perm ss :=
    (List.mergeSort_perm _ _).trans (spans_perm fun _ _ hl => shownSpan?_of_mem_lexemes hl)
  have hsorted : ss.Pairwise fun a b => a.start < b.start :=
    List.pairwise_map.mpr (pairwise_start_lexemes text)
  have hspans : (lex text).spans.Pairwise fun a b => a.start ≤ b.start := by
    refine (List.pairwise_mergeSort ?_ ?_ _).imp of_decide_eq_true
    · intro a b c hab hbc
      simp only [decide_eq_true_eq] at hab hbc ⊢
      omega
    · intro a b
      simp only [Bool.or_eq_true, decide_eq_true_eq]
      omega
  have hstarts : (ss.map Span.start).Nodup := List.pairwise_map.mpr (hsorted.imp Nat.ne_of_lt)
  -- no two spans begin together, so there is only one order
  refine hperm.eq_of_pairwise ?_ hspans (hsorted.imp Nat.le_of_lt)
  intro a b ha hb hab hba
  exact List.inj_on_of_nodup_map hstarts (hperm.mem_iff.mp ha) hb (Nat.le_antisymm hab hba)

theorem mem_spans_lex {text : String} {s : Span} :
    s ∈ (lex text).spans ↔ ∃ l ∈ lexemes 0 text.toList, l.span = s := by
  rw [spans_lex, List.mem_map]

theorem utf8Size_of_isBlank {c : Char} (h : isBlank c = true) : c.utf8Size = 1 := by
  simp only [isBlank, Bool.or_eq_true, decide_eq_true_eq] at h
  rcases h with (((rfl | rfl) | rfl) | rfl) | rfl <;> decide

theorem first_byte_of_isBlank {c : Char} (h : isBlank c = true) (hpos : 0 < [c].utf8Encode.size) :
    [c].utf8Encode[0] ∈ ([0x20, 0x09, 0x0d, 0x0a, 0x0c] : List UInt8) := by
  revert hpos
  simp only [isBlank, Bool.or_eq_true, decide_eq_true_eq] at h
  rcases h with (((rfl | rfl) | rfl) | rfl) | rfl <;> decide +kernel

/-- Where a blank stands in a text, the text has the byte of a blank. -/
theorem mem_blankBytes_of_isBlank {text : String} {before after : List Char} {c : Char}
    (htext : text.toList = before ++ c :: after) (hblank : isBlank c = true)
    (h : byteLength before < text.toUTF8.size) :
    text.toUTF8[byteLength before] ∈ [0x20, 0x09, 0x0d, 0x0a, 0x0c] := by
  have htext : text = String.ofList (before ++ [c] ++ after) := by
    rw [List.append_assoc, List.singleton_append, ← htext, String.ofList_toList]
  subst htext
  have hpos : 0 < [c].utf8Encode.size := by
    rw [size_utf8Encode]
    exact byteLength_pos (List.cons_ne_nil c [])
  have hbyte : (String.ofList (before ++ [c] ++ after)).toUTF8[byteLength before] =
      [c].utf8Encode[0] := by
    simp only [String.toUTF8_eq_toByteArray, String.toByteArray_ofList, List.utf8Encode_append]
    rw [ByteArray.getElem_append_left, ByteArray.getElem_append_right]
    · simp [size_utf8Encode]
    · simp [size_utf8Encode]
    · simp [size_utf8Encode, c.utf8Size_pos]
  rw [hbyte]
  exact first_byte_of_isBlank hblank hpos

/-- The lower-case form of a word is its slice in lower case. -/
theorem fold_eq_map (cs : List Char) : fold cs = (String.ofList cs).map Char.toLower := by
  apply String.ext
  rw [fold, String.toList_map, String.toList_ofList, String.toList_ofList]

/-- **Lexing loses nothing.**  Every byte of a text belongs to a token, or to a slice that is
reported, or is a blank, and none to two of them.  Tokens and reports come in the order of the text
and show what stands in it. -/
theorem lex_accountsFor (text : String) : (lex text).AccountsFor text where
  nonempty := by
    intro s hs
    obtain ⟨l, hl, rfl⟩ := mem_spans_lex.mp hs
    exact start_lt_stop_of_mem_lexemes hl
  disjoint := by
    rw [spans_lex]
    exact List.pairwise_map.mpr (pairwise_lexemes 0 text.toList)
  boundaries := by
    intro s hs
    obtain ⟨l, hl, rfl⟩ := mem_spans_lex.mp hs
    obtain ⟨hstart, hstop, -⟩ := boundaries_of_mem_lexemes hl
    exact ⟨hstart, hstop⟩
  inside := by
    intro s hs
    obtain ⟨l, hl, rfl⟩ := mem_spans_lex.mp hs
    obtain ⟨-, -, hinside⟩ := boundaries_of_mem_lexemes hl
    exact hinside
  tokens_sorted := by
    refine (pairwise_start_lexemes text).filterMap Lexeme.token? ?_
    rintro ⟨_ | _, _⟩ ⟨_ | _, _⟩ hlt t ht u hu <;> cases ht <;> cases hu
    exact hlt
  diagnostics_sorted := pairwise_diagnostics_lex text
  blank := by
    intro i h huncovered
    have hlt : i < byteLength text.toList := by
      rw [← utf8ByteSize_eq]
      exact h
    obtain ⟨before, c, after, htext, hstart, hstop⟩ := exists_char_of_lt_byteLength hlt
    rcases isBlank_or_exists_lexeme 0 text.toList before c after htext with hblank | ⟨l, hl, hin⟩
    · have hsize := utf8Size_of_isBlank hblank
      obtain rfl : i = byteLength before := by omega
      exact mem_blankBytes_of_isBlank htext hblank h
    -- the lexeme covers all bytes of the character, this one among them
    · have hcovered : l.span.start ≤ i ∧ i < l.span.stop := by omega
      exact absurd hcovered (huncovered l.span (mem_spans_lex.mpr ⟨l, hl, rfl⟩))
  reported := by
    intro d hd
    obtain ⟨slice, span, hl, rfl⟩ := mem_diagnostics_lex hd
    obtain ⟨cs, -, hslice, hspan⟩ := exists_enclosed_of_mem_lexemes hl
    have hslice : slice = String.ofList cs := hslice
    rw [Diagnostic.shownSlice_unexpected]
    exact ⟨rfl, span, shownSpan?_of_mem_lexemes hl, hslice ▸ hspan⟩
  written := by
    intro t ht
    obtain ⟨slice, -, hspells, hspan⟩ := exists_enclosed_of_mem_lexemes (mem_tokens_lex ht)
    refine ⟨String.ofList slice, hspan, ?_⟩
    match t, hspells with
    | ⟨.word name, _⟩, hspells => exact (show name = fold slice from hspells) ▸ fold_eq_map slice
    | ⟨.quoted name, _⟩, hspells => exact hspells
    | ⟨.dot, _⟩, hspells => exact hspells

end SqlVet
