import SqlVet.Proofs.Name.Lexeme
import Mathlib.Data.List.TakeWhile

/-!
# Longest match

The lexeme that leads a text can be told without the lexer, by the form of its slice and by what
does not follow it:

* `leads_cut`, `Leads.cut_eq`: the lexer cuts off what leads the text, and nothing else does;
* `exists_leads_of_mem_lexemes`: so each lexeme leads what is left of the text where it begins;
* `exists_unclosed_iff`: a quotation is left unclosed exactly if the number of quotes is odd, since
  the slices of all other lexemes have an even number of them;
* `lex_byLongestMatch`: what may follow a token, and what the stray pieces of a text can be.
-/

namespace SqlVet

/-! ## What leads a text

What the first lexeme of a text is, without the lexer: by the classes of characters and by what may
follow.  One lemma ties that to the way in which lexemes are cut off.
-/

/-- A character that no token begins with and that is not a blank. -/
structure IsStray (c : Char) : Prop where
  not_blank : isBlank c = false
  not_wordStart : isWordStart c = false
  ne_dot : c ≠ '.'
  ne_quote : c ≠ '"'

/-- A lexeme begins a text and is the longest that does. -/
inductive Leads : List Char → Cut → Prop where
  | dot (rest : List Char) : Leads ('.' :: rest) ⟨.token .dot, ['.'], rest⟩
  | word {c : Char} {cs rest : List Char} (hc : isWordStart c = true)
      (hcs : ∀ d ∈ cs, isWordPart d = true) (hrest : ∀ d ∈ rest.head?, isWordPart d = false) :
      Leads (c :: (cs ++ rest)) ⟨.token (.word (fold (c :: cs))), c :: cs, rest⟩
  | quoted (name : List Char) {rest : List Char} (hrest : rest.head? ≠ some '"') :
      Leads ('"' :: (Quoted.encode name ++ '"' :: rest))
        ⟨.token (.quoted (String.ofList name)), '"' :: (Quoted.encode name ++ ['"']), rest⟩
  /-- Behind the opening quote every quote is doubled, so none of them closes the quotation. -/
  | unclosed (name : List Char) :
      Leads ('"' :: Quoted.encode name)
        ⟨.stray (String.ofList ('"' :: Quoted.encode name)), '"' :: Quoted.encode name, []⟩
  | stray {c : Char} (hc : IsStray c) (rest : List Char) :
      Leads (c :: rest) ⟨.stray (String.ofList [c]), [c], rest⟩

section
variable {c : Char} {cs text : List Char} {k : Cut}

theorem isWordPart_of_isWordStart (h : isWordStart c = true) : isWordPart c = true := by
  rw [isWordPart, h, Bool.true_or, Bool.true_or]

theorem isWordPart_of_isBlank (h : isBlank c = true) : isWordPart c = false := by
  simp only [isBlank, Bool.or_eq_true, decide_eq_true_eq] at h
  rcases h with (((rfl | rfl) | rfl) | rfl) | rfl <;> decide

theorem isWordStart_of_isBlank (h : isBlank c = true) : isWordStart c = false := by
  have hpart := isWordPart_of_isBlank h
  simp only [isWordPart, Bool.or_eq_false_iff] at hpart
  exact hpart.1.1

theorem ne_quote_of_isBlank (h : isBlank c = true) : c ≠ '"' := by
  rintro rfl
  exact absurd h (by decide)

theorem ne_quote_of_isWordPart (h : isWordPart c = true) : c ≠ '"' := by
  rintro rfl
  exact absurd h (by decide)

/-- What is cut off a text leads it. -/
theorem leads_cut (h : isBlank c = false) (cs : List Char) : Leads (c :: cs) (cut c cs) := by
  unfold cut
  split
  · next hdot =>
    subst hdot
    exact .dot cs
  · next hdot =>
    split
    -- behind a quote there is a closing one that no other follows, or all quotes come in twos
    · next hquote =>
      subst hquote
      split
      · next slice rest hpart =>
        obtain ⟨⟨name, rfl⟩, hrest, rfl⟩ := quotedPart_eq_some_iff.mp hpart
        have hname : unquote ('"' :: (Quoted.encode name ++ ['"'])) = String.ofList name :=
          unquote_quote name
        rw [hname, List.append_assoc]
        exact .quoted name hrest
      · next hpart =>
        obtain ⟨name, rfl⟩ := quotedPart_eq_none_iff.mp hpart
        exact .unclosed name
    · next hquote =>
      split
      · next hstart =>
        have hinside : ∀ d ∈ cs.takeWhile isWordPart, isWordPart d = true :=
          fun d hd => List.mem_takeWhile_imp hd
        have hboundary : ∀ d ∈ (cs.dropWhile isWordPart).head?, isWordPart d = false := by
          intro d hd
          have hhead := List.head?_dropWhile_not isWordPart cs
          rw [hd] at hhead
          exact hhead
        have hword := Leads.word hstart hinside hboundary
        rwa [List.takeWhile_append_dropWhile] at hword
      · next hstart =>
        exact .stray ⟨h, Bool.not_eq_true _ ▸ hstart, hdot, hquote⟩ cs

/-- A run of word characters ends where the next character is none. -/
theorem takeWhile_append_of_head? {rest : List Char} (hcs : ∀ d ∈ cs, isWordPart d = true)
    (hrest : ∀ d ∈ rest.head?, isWordPart d = false) :
    (cs ++ rest).takeWhile isWordPart = cs ∧ (cs ++ rest).dropWhile isWordPart = rest := by
  rw [List.takeWhile_append_of_pos hcs, List.dropWhile_append_of_pos hcs]
  cases rest with
  | nil => exact ⟨List.append_nil cs, rfl⟩
  | cons d rest =>
    have hd : ¬ isWordPart d = true := by
      rw [hrest d rfl]
      exact Bool.false_ne_true
    rw [List.takeWhile_cons_of_neg hd, List.dropWhile_cons_of_neg hd]
    exact ⟨List.append_nil cs, rfl⟩

/-- Nothing else leads a text than what is cut off it, so its first lexeme is determined. -/
theorem Leads.cut_eq (h : Leads (c :: cs) k) : cut c cs = k := by
  cases h with
  | dot => rfl
  | @word _ cs rest hc hcs hrest =>
    have hdot : c ≠ '.' := by
      rintro rfl
      exact absurd hc (by decide)
    have hquote := ne_quote_of_isWordPart (isWordPart_of_isWordStart hc)
    obtain ⟨htake, hdrop⟩ := takeWhile_append_of_head? hcs hrest
    rw [cut, if_neg hdot, if_neg hquote, if_pos hc, htake, hdrop]
  | quoted name hrest => exact cut_quotation name hrest
  | unclosed name =>
    rw [cut, if_neg (by decide), if_pos rfl, quotedPart_encode_eq_none]
  | stray hc =>
    have hstart : ¬ isWordStart c = true := by
      rw [hc.not_wordStart]
      exact Bool.false_ne_true
    rw [cut, if_neg hc.ne_dot, if_neg hc.ne_quote, if_neg hstart]

/-- What leads a text begins with something other than a blank. -/
theorem Leads.exists_cons (h : Leads text k) : ∃ c cs, text = c :: cs ∧ isBlank c = false := by
  cases h with
  | dot rest => exact ⟨_, _, rfl, by decide⟩
  | @word c cs rest hc _ _ =>
    refine ⟨_, _, rfl, Bool.eq_false_iff.mpr ?_⟩
    intro hblank
    rw [isWordStart_of_isBlank hblank] at hc
    cases hc
  | quoted name _ => exact ⟨_, _, rfl, by decide⟩
  | unclosed name => exact ⟨_, _, rfl, by decide⟩
  | stray hc rest => exact ⟨_, _, rfl, hc.not_blank⟩

/-- What leads a text is its first lexeme, and lexing goes on behind it. -/
theorem Leads.lexemes_eq (h : Leads text k) (offset : Nat) :
    lexemes offset text = ⟨k.lexeme, offset, offset + byteLength k.slice⟩
      :: lexemes (offset + byteLength k.slice) k.rest := by
  obtain ⟨c, cs, rfl, hc⟩ := h.exists_cons
  rw [lexemes_cons_of_not_blank hc, h.cut_eq]

theorem Leads.slice_append_rest (h : Leads text k) : k.slice ++ k.rest = text := by
  obtain ⟨c, cs, rfl, -⟩ := h.exists_cons
  rw [← h.cut_eq, SqlVet.slice_append_rest]

/-- A quotation that is not closed. -/
def Lexeme.Unclosed : Lexeme → Prop
  | .token _ => False
  | .stray slice => slice.toList.head? = some '"'

/-- A lexeme has an odd number of quotes exactly if it is a quotation that is never closed. -/
theorem Leads.count_slice (h : Leads text k) :
    k.lexeme.Unclosed ↔ k.slice.count '"' % 2 = 1 := by
  cases h with
  | dot => exact ⟨nofun, nofun⟩
  | @word c cs _ hc hcs hrest =>
    have hnone : (c :: cs).count '"' = 0 := by
      apply List.count_eq_zero.mpr
      intro hmem
      rcases List.mem_cons.mp hmem with hquote | hmem
      · exact ne_quote_of_isWordPart (isWordPart_of_isWordStart hc) hquote.symm
      · exact ne_quote_of_isWordPart (hcs _ hmem) rfl
    rw [hnone]
    exact ⟨nofun, nofun⟩
  | quoted name hrest =>
    simp only [Lexeme.Unclosed, List.count_cons_self, List.count_append, Quoted.count_encode,
      List.count_nil, false_iff]
    omega
  | unclosed name =>
    simp only [Lexeme.Unclosed, String.toList_ofList, List.head?_cons, List.count_cons_self,
      Quoted.count_encode, true_iff]
    omega
  | stray hc rest =>
    simp only [Lexeme.Unclosed, String.toList_ofList, List.head?_cons, Option.some.injEq,
      List.count_singleton, beq_iff_eq, if_neg hc.ne_quote]
    exact ⟨fun h => absurd h hc.ne_quote, nofun⟩

theorem Leads.rest_of_unclosed (h : Leads text k) (hk : k.lexeme.Unclosed) : k.rest = [] := by
  cases h with
  | dot | word | quoted => cases hk
  | unclosed name => rfl
  | stray hc rest =>
    simp only [Lexeme.Unclosed, String.toList_ofList, List.head?_cons, Option.some.injEq] at hk
    exact absurd hk hc.ne_quote

/-- No word goes on behind its end. -/
theorem Leads.after_word {name : String} (h : Leads text k)
    (hk : k.lexeme = .token (.word name)) : ∀ d ∈ k.rest.head?, isWordPart d = false := by
  cases h with
  | word hc hcs hrest => exact hrest
  | dot | quoted | unclosed | stray => cases hk

/-- No quote stands directly behind a quotation, or it would belong to it. -/
theorem Leads.after_quoted {name : String} (h : Leads text k)
    (hk : k.lexeme = .token (.quoted name)) : k.rest.head? ≠ some '"' := by
  cases h with
  | quoted name hrest => exact hrest
  | dot | word | unclosed | stray => cases hk

/-- A stray piece is a quotation that is not closed, or a single character. -/
theorem Leads.unclosed_or_isStray {slice : String} (h : Leads text k)
    (hk : k.lexeme = .stray slice) :
    k.lexeme.Unclosed ∨ ∃ c, IsStray c ∧ slice = String.singleton c := by
  cases h with
  | dot | word | quoted => cases hk
  | unclosed name => exact .inl (by simp [Lexeme.Unclosed])
  | @stray c hc rest =>
    cases hk
    exact .inr ⟨c, hc, (String.singleton_eq_ofList).symm⟩

theorem ascii_of_not_isWordPart (h : isWordPart c = false) :
    c.toNat < 0x80 ∧ c.isAlphanum = false ∧ c ∉ ['_', '$'] := by
  simp only [isWordPart, isWordStart, Bool.or_eq_false_iff, decide_eq_false_iff_not] at h
  obtain ⟨⟨⟨⟨halpha, hunderscore⟩, hascii⟩, hdigit⟩, hdollar⟩ := h
  refine ⟨Nat.lt_of_not_le hascii, ?_, ?_⟩
  · rw [Char.isAlphanum, halpha, hdigit, Bool.or_false]
  · simp [hunderscore, hdollar]

/-- What begins nothing is a single ASCII character, and no letter, dot, quote or blank. -/
theorem IsStray.ascii (h : IsStray c) :
    c.toNat < 0x80 ∧ c.isAlpha = false
      ∧ c ∉ ['_', '.', '"', ' ', '\t', '\r', '\n', '\x0c'] := by
  have hword := h.not_wordStart
  have hblank := h.not_blank
  simp only [isWordStart, Bool.or_eq_false_iff, decide_eq_false_iff_not] at hword
  simp only [isBlank, Bool.or_eq_false_iff, decide_eq_false_iff_not] at hblank
  refine ⟨Nat.lt_of_not_le hword.2, hword.1.1, ?_⟩
  simp [hword, hblank, h.ne_dot, h.ne_quote]

end

/-! ## The lexemes of a text

Each lexeme of a text leads what is left of it from there on.
-/

section
variable {offset : Nat} {cs : List Char} {l : Spanned Lexeme}

/-- Each lexeme leads the text from its own beginning. -/
theorem exists_leads_of_mem_lexemes (h : l ∈ lexemes offset cs) :
    ∃ before slice after, cs = before ++ (slice ++ after)
      ∧ Leads (slice ++ after) ⟨l.item, slice, after⟩
      ∧ l.span = ⟨offset + byteLength before, offset + byteLength before + byteLength slice⟩ := by
  obtain ⟨before, c, rest, rfl, hc, hitem, hspan⟩ := exists_cut_of_mem_lexemes h
  have hcut := slice_append_rest c rest
  refine ⟨before, (cut c rest).slice, (cut c rest).rest, ?_, ?_, hspan⟩
  · rw [hcut]
  · rw [hcut, hitem]
    exact leads_cut hc rest

/-- Some quotation is never closed exactly if the number of quotes is odd. -/
theorem exists_unclosed_iff (offset : Nat) (cs : List Char) :
    (∃ l ∈ lexemes offset cs, l.item.Unclosed) ↔ cs.count '"' % 2 = 1 := by
  fun_induction lexemes offset cs with
  | case1 => simp
  | case2 offset c cs hblank ih => rw [ih, List.count_cons_of_ne (ne_quote_of_isBlank hblank)]
  | case3 offset c cs hblank first stop ih =>
    have hleads : Leads (c :: cs) first := leads_cut (Bool.not_eq_true _ ▸ hblank) cs
    have hcount : (c :: cs).count '"' = first.slice.count '"' + first.rest.count '"' := by
      rw [← slice_append_rest c cs, List.count_append]
    have hfirst := hleads.count_slice
    simp only [List.mem_cons, exists_eq_or_imp, ih, hfirst, hcount]
    by_cases hodd : first.slice.count '"' % 2 = 1
    -- the first slice is not closed, and so there is nothing behind it
    · have hrest := hleads.rest_of_unclosed (hfirst.mpr hodd)
      simp [hrest, hodd]
    · omega

/-- What is not closed takes up the rest of the text, and no lexeme comes after it. -/
theorem unclosed_is_last (h : l ∈ lexemes offset cs) (hl : l.item.Unclosed) :
    l.span.stop = offset + byteLength cs ∧ ∃ before, lexemes offset cs = before ++ [l] := by
  obtain ⟨before, slice, after, hcs, hleads, hspan⟩ := exists_leads_of_mem_lexemes h
  obtain rfl : after = [] := hleads.rest_of_unclosed hl
  have hstop : l.span.stop = offset + byteLength cs := by
    rw [hspan, hcs, List.append_nil, byteLength_append, Nat.add_assoc]
  refine ⟨hstop, ?_⟩
  obtain ⟨earlier, later, hsplit⟩ := List.append_of_mem h
  cases later with
  | nil => exact ⟨earlier, hsplit⟩
  | cons m later =>
    have hordered := pairwise_lexemes offset cs
    rw [hsplit, List.pairwise_append] at hordered
    have hm : l.span.stop ≤ m.span.start :=
      List.rel_of_pairwise_cons hordered.2.1 List.mem_cons_self
    have hmem : m ∈ lexemes offset cs := by
      rw [hsplit]
      simp
    -- but that one would take up something behind the end of the text
    obtain ⟨before', slice', after', hcs', hne, -, hspan'⟩ := exists_slice_of_mem_lexemes hmem
    have hpos := byteLength_pos hne
    have hstart : m.span.start = offset + byteLength before' := by rw [hspan']
    rw [hstop, hstart, hcs', byteLength_append, byteLength_append] at hm
    omega

end

/-! ## What lexing a text gives

The same said of tokens and reports, by the byte offsets that they carry and without a look at the
lexemes they come from.
-/

/-- What stands in a text right behind a span. -/
def Span.FollowedBy (span : Span) (text : String) (c : Char) : Prop :=
  ∃ before after, text = before ++ String.singleton c ++ after
    ∧ before.utf8ByteSize = span.stop

/-- The report of a quotation that is not closed: the slice that it shows opens one. -/
def Diagnostic.Unclosed (d : Diagnostic) : Prop := d.shownSlice.toList.head? = some '"'

namespace Lexed

/-- What has been lexed is each time the longest that there is. -/
structure ByLongestMatch (l : Lexed) (text : String) : Prop where
  /-- Behind a word stands no letter, digit, underscore or dollar sign, and nothing beyond ASCII. -/
  word : ∀ t ∈ l.tokens, ∀ name, t.item = .word name →
    ∀ c, t.span.FollowedBy text c →
      c.toNat < 0x80 ∧ c.isAlphanum = false ∧ c ∉ ['_', '$']
  quoted : ∀ t ∈ l.tokens, ∀ name, t.item = .quoted name → ¬ t.span.FollowedBy text '"'
  unclosed_iff : (∃ d ∈ l.diagnostics, d.Unclosed) ↔ text.toList.count '"' % 2 = 1
  /-- What is reported as not closed reaches to the end of the text. -/
  unclosed_last : ∀ d ∈ l.diagnostics, d.Unclosed →
    ∃ earlier before, l.diagnostics = earlier ++ [d] ∧ text = before ++ d.shownSlice
      ∧ d.location = some before.utf8ByteSize
      ∧ ∀ t ∈ l.tokens, t.span.start < before.utf8ByteSize
  /-- Everything else that is reported is a character of ASCII that no token begins with. -/
  stray : ∀ d ∈ l.diagnostics, ¬ d.Unclosed →
    ∃ c, d.shownSlice = String.singleton c ∧ c.toNat < 0x80 ∧ c.isAlpha = false
      ∧ c ∉ ['_', '.', '"', ' ', '\t', '\r', '\n', '\x0c']

end Lexed

section
variable {text : String}

/-- A text is cut in only one way at a byte. -/
theorem append_inj_of_byteLength {as bs cs ds : List Char} (h : as ++ bs = cs ++ ds)
    (hlength : byteLength as = byteLength cs) : as = cs ∧ bs = ds := by
  have hnil : ∀ gap : List Char, byteLength gap = 0 → gap = [] := by
    intro gap hgap
    by_contra hne
    have := byteLength_pos hne
    omega
  rcases List.append_eq_append_iff.mp h with ⟨gap, rfl, rfl⟩ | ⟨gap, rfl, rfl⟩
  · rw [byteLength_append] at hlength
    rw [hnil gap (by omega), List.append_nil]
    exact ⟨rfl, rfl⟩
  · rw [byteLength_append] at hlength
    rw [hnil gap (by omega), List.append_nil]
    exact ⟨rfl, rfl⟩

/-- What stands behind a token is what the lexer has not read yet where the token ends. -/
theorem exists_leads_of_followedBy {t : Spanned Token} {c : Char}
    (ht : t ∈ (lex text).tokens) (hc : t.span.FollowedBy text c) :
    ∃ cs k, Leads cs k ∧ k.lexeme = .token t.item ∧ k.rest.head? = some c := by
  obtain ⟨before, slice, after, htext, hleads, hspan⟩ :=
    exists_leads_of_mem_lexemes (mem_tokens_lex ht)
  obtain ⟨before', after', rfl, hbefore⟩ := hc
  refine ⟨_, _, hleads, rfl, ?_⟩
  have hcut : (before ++ slice) ++ after = before'.toList ++ c :: after'.toList := by
    rw [List.append_assoc, ← htext]
    simp
  have hlength : byteLength (before ++ slice) = byteLength before'.toList := by
    rw [← utf8ByteSize_eq, hbefore, byteLength_append]
    simpa using congrArg Span.stop hspan.symm
  rw [(append_inj_of_byteLength hcut hlength).2, List.head?_cons]

/-- The report of a stray piece tells whether it is a quotation that is never closed. -/
theorem unclosed_iff_lexeme {slice : String} {location : Option Nat} :
    ((Cause.unexpected slice).diagnostic location).Unclosed ↔ (Lexeme.stray slice).Unclosed := by
  rw [Diagnostic.Unclosed, Diagnostic.shownSlice_unexpected, Lexeme.Unclosed]

/-- A quotation that is not closed is reported last, is all of the text from its place on, and no
token begins there or later. -/
theorem lex_of_unclosed {slice : String} {span : Span}
    (h : ⟨.stray slice, span⟩ ∈ lexemes 0 text.toList)
    (hunclosed : (Lexeme.stray slice).Unclosed) :
    ∃ earlier before, (lex text).diagnostics
        = earlier ++ [(Cause.unexpected slice).diagnostic (some span.start)]
      ∧ text = before ++ slice ∧ span.start = before.utf8ByteSize
      ∧ ∀ t ∈ (lex text).tokens, t.span.start < span.start := by
  obtain ⟨hstop, earlier, hlexemes⟩ := unclosed_is_last h hunclosed
  obtain ⟨cs, -, hslice, before, after, htext, hspan⟩ := exists_enclosed_of_mem_lexemes h
  obtain rfl : slice = String.ofList cs := hslice
  obtain rfl : span = ⟨before.utf8ByteSize, _⟩ := hspan
  refine ⟨earlier.filterMap Lexeme.diagnostic?, before, ?_, ?_, rfl, ?_⟩
  · show (lexemes 0 text.toList).filterMap Lexeme.diagnostic? = _
    rw [hlexemes, List.filterMap_append]
    rfl
  -- the span stops where the text does, so nothing can follow in it
  · have hsize : after.utf8ByteSize = 0 := by
      rw [Nat.zero_add, ← utf8ByteSize_eq, htext] at hstop
      simpa using hstop
    rw [htext, String.utf8ByteSize_eq_zero_iff.mp hsize, String.append_empty]
  · intro t ht
    have hmem := mem_tokens_lex ht
    have hlt := start_lt_stop_of_mem_lexemes hmem
    have hordered := pairwise_lexemes 0 text.toList
    rw [hlexemes] at hmem hordered
    obtain ⟨-, -, hbefore⟩ := List.pairwise_append.mp hordered
    rcases List.mem_append.mp hmem with hearlier | hlast
    · have hle := hbefore _ hearlier _ (List.mem_singleton_self _)
      exact Nat.lt_of_lt_of_le hlt hle
    · cases List.mem_singleton.mp hlast

end

/-- **Lexing is by longest match.**  Nothing behind a word could be part of it, and behind a
quotation there is no quote.  A text with an odd number of quotes has a last one that opens a
quotation and closes none: from there on the text is not read.  Whatever else is stray is a
character of its own. -/
theorem lex_byLongestMatch (text : String) : (lex text).ByLongestMatch text where
  word := by
    intro t ht name hname c hc
    obtain ⟨cs, k, hleads, hitem, hafter⟩ := exists_leads_of_followedBy ht hc
    rw [hname] at hitem
    exact ascii_of_not_isWordPart (hleads.after_word hitem c hafter)
  quoted := by
    intro t ht name hname hquote
    obtain ⟨cs, k, hleads, hitem, hafter⟩ := exists_leads_of_followedBy ht hquote
    rw [hname] at hitem
    exact hleads.after_quoted hitem hafter
  unclosed_iff := by
    rw [← exists_unclosed_iff 0]
    constructor
    · rintro ⟨d, hd, hunclosed⟩
      obtain ⟨slice, span, hl, rfl⟩ := mem_diagnostics_lex hd
      exact ⟨_, hl, unclosed_iff_lexeme.mp hunclosed⟩
    · rintro ⟨⟨item, span⟩, hl, hunclosed⟩
      cases item with
      | token t => cases hunclosed
      | stray slice =>
        exact ⟨_, List.mem_filterMap.mpr ⟨_, hl, rfl⟩, unclosed_iff_lexeme.mpr hunclosed⟩
  unclosed_last := by
    intro d hd hunclosed
    obtain ⟨slice, span, hl, rfl⟩ := mem_diagnostics_lex hd
    obtain ⟨earlier, before, hlast, htext, hstart, htokens⟩ :=
      lex_of_unclosed hl (unclosed_iff_lexeme.mp hunclosed)
    rw [Diagnostic.shownSlice_unexpected]
    exact ⟨earlier, before, hlast, htext, congrArg some hstart, hstart ▸ htokens⟩
  stray := by
    intro d hd hclosed
    obtain ⟨slice, span, hl, rfl⟩ := mem_diagnostics_lex hd
    obtain ⟨before, cs, after, -, hleads, -⟩ := exists_leads_of_mem_lexemes hl
    rcases hleads.unclosed_or_isStray rfl with hunclosed | ⟨c, hc, rfl⟩
    · exact absurd (unclosed_iff_lexeme.mpr hunclosed) hclosed
    · exact ⟨c, Diagnostic.shownSlice_unexpected _ _, hc.ascii⟩

-- the quotes at the end are one quote in the quotation, which nothing closes
example : (lex "b\"a\"\"").diagnostics.map Diagnostic.shownSlice = ["\"a\"\""] := by
  decide +kernel

end SqlVet
