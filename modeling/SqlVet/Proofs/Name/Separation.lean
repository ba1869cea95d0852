import SqlVet.Proofs.Name.Grammar
import SqlVet.Proofs.Name.LongestMatch

/-!
# Separators

A blank or a dot behind a text whose quotations are all closed keeps that text apart from what
follows:

* `Leads.append`: a lexeme that is closed still leads the text if something is added that does not
  continue it;
* `lexemes_append`: so the lexemes of the longer text are those of the first, and then those of what
  is added;
* `lexemes_shift`: where a text begins matters to the places of its lexemes only;
* `dotted_append_iff`: a name is cut at any of its dots into two names;
* `lex_separated`: what is lexed and what is read of two texts with a separator between them.
-/

namespace SqlVet

/-! ## Adding to a text

What is added behind a separator is not seen by the lexemes before it.
-/

/-- No lexeme goes on with the beginning of this text, unless it is a quotation. -/
def Separates (rest : List Char) : Prop :=
  ∀ c ∈ rest.head?, isWordPart c = false ∧ c ≠ '"'

section
variable {offset : Nat} {text rest cs : List Char} {c : Char} {k : Cut}

/-- What leads a text leads it with more behind it, unless it is a quotation that is never
closed. -/
theorem Leads.append (h : Leads text k) (hk : ¬ k.lexeme.Unclosed) (hrest : Separates rest) :
    Leads (text ++ rest) ⟨k.lexeme, k.slice, k.rest ++ rest⟩ := by
  cases h with
  | dot after => exact .dot (after ++ rest)
  | @word c cs after hc hcs hafter =>
    have hboundary : ∀ d ∈ (after ++ rest).head?, isWordPart d = false := by
      cases after with
      | nil => exact fun d hd => (hrest d hd).1
      | cons d after => exact hafter
    rw [List.cons_append, List.append_assoc]
    exact .word hc hcs hboundary
  | @quoted name after hafter =>
    have hboundary : (after ++ rest).head? ≠ some '"' := by
      cases after with
      | nil => exact fun hquote => (hrest _ hquote).2 rfl
      | cons d after => exact hafter
    rw [List.cons_append, List.append_assoc]
    exact .quoted name hboundary
  | unclosed name => exact absurd (by simp [Lexeme.Unclosed]) hk
  | stray hc after => exact .stray hc (after ++ rest)

theorem cut_append (h : isBlank c = false) (hk : ¬ (cut c cs).lexeme.Unclosed)
    (hrest : Separates rest) :
    cut c (cs ++ rest) = ⟨(cut c cs).lexeme, (cut c cs).slice, (cut c cs).rest ++ rest⟩ :=
  ((leads_cut h cs).append hk hrest).cut_eq

/-- The number of quotes is even where a text ends between two lexemes. -/
theorem lexemes_append (hquotes : cs.count '"' % 2 = 0) (hrest : Separates rest) :
    lexemes offset (cs ++ rest) =
      lexemes offset cs ++ lexemes (offset + byteLength cs) rest := by
  fun_induction lexemes offset cs with
  | case1 => rfl
  | case2 offset c cs hblank ih =>
    rw [List.count_cons_of_ne (ne_quote_of_isBlank hblank)] at hquotes
    rw [List.cons_append, lexemes_cons_of_blank hblank, ih hquotes, byteLength_cons, Nat.add_assoc]
  | case3 offset c cs hblank first stop ih =>
    have hblank : isBlank c = false := Bool.not_eq_true _ ▸ hblank
    have hleads : Leads (c :: cs) first := leads_cut hblank cs
    have htext : first.slice ++ first.rest = c :: cs := slice_append_rest c cs
    rw [← htext, List.count_append] at hquotes
    -- an open quotation would take up the whole text, whose quotes would be odd in number
    have hclosed : ¬ first.lexeme.Unclosed := by
      intro hunclosed
      have hodd := hleads.count_slice.mp hunclosed
      rw [hleads.rest_of_unclosed hunclosed, List.count_nil] at hquotes
      omega
    have heven : first.rest.count '"' % 2 = 0 := by
      have := hleads.count_slice.not.mp hclosed
      omega
    have hlength : byteLength (c :: cs) = byteLength first.slice + byteLength first.rest := by
      rw [← htext, byteLength_append]
    rw [List.cons_append, lexemes_cons_of_not_blank hblank, cut_append hblank hclosed hrest,
      ih heven, hlength, ← Nat.add_assoc]
    rfl

end

/-! ## Moving a text

A text that begins at another offset has the same lexemes, moved.
-/

def Span.shift (k : Nat) (s : Span) : Span := ⟨s.start + k, s.stop + k⟩

def Spanned.shift {α : Type} (k : Nat) (x : Spanned α) : Spanned α := ⟨x.item, x.span.shift k⟩

def Diagnostic.shift (k : Nat) (d : Diagnostic) : Diagnostic :=
  { d with location := d.location.map (· + k) }

/-- All spans move by the same number of bytes, and nothing else changes. -/
theorem lexemes_shift (offset k : Nat) (cs : List Char) :
    lexemes (offset + k) cs = (lexemes offset cs).map (Spanned.shift k) := by
  fun_induction lexemes offset cs with
  | case1 => exact lexemes_nil _
  | case2 offset c cs hblank ih =>
    rw [lexemes_cons_of_blank hblank, Nat.add_right_comm, ih]
  | case3 offset c cs hblank first stop ih =>
    rw [lexemes_cons_of_not_blank (Bool.not_eq_true _ ▸ hblank), Nat.add_right_comm offset k, ih]
    rfl

namespace Lexed

/-- The tokens and the reports that lexemes stand for. -/
def ofLexemes (ls : List (Spanned Lexeme)) : Lexed :=
  ⟨ls.filterMap Lexeme.token?, ls.filterMap Lexeme.diagnostic?⟩

/-- What is lexed of one text and then of another. -/
def append (l m : Lexed) : Lexed := ⟨l.tokens ++ m.tokens, l.diagnostics ++ m.diagnostics⟩

instance appendInstance : Append Lexed := ⟨append⟩

def shift (k : Nat) (l : Lexed) : Lexed :=
  ⟨l.tokens.map (Spanned.shift k), l.diagnostics.map (Diagnostic.shift k)⟩

/-- A dot and nothing else, at a place. -/
def dotAt (place : Nat) : Lexed := ⟨[⟨.dot, place, place + 1⟩], []⟩

@[simp] theorem tokens_append (l m : Lexed) : (l ++ m).tokens = l.tokens ++ m.tokens := rfl

@[simp] theorem diagnostics_append (l m : Lexed) :
    (l ++ m).diagnostics = l.diagnostics ++ m.diagnostics := rfl

theorem ofLexemes_append (ls ms : List (Spanned Lexeme)) :
    ofLexemes (ls ++ ms) = ofLexemes ls ++ ofLexemes ms := by
  simp only [ofLexemes, List.filterMap_append]
  rfl

theorem ofLexemes_shift (k : Nat) (ls : List (Spanned Lexeme)) :
    ofLexemes (ls.map (Spanned.shift k)) = (ofLexemes ls).shift k := by
  have htoken : Lexeme.token? ∘ Spanned.shift k =
      fun l => (Lexeme.token? l).map (Spanned.shift k) := by
    funext ⟨item, span⟩
    cases item <;> rfl
  have hdiagnostic : Lexeme.diagnostic? ∘ Spanned.shift k =
      fun l => (Lexeme.diagnostic? l).map (Diagnostic.shift k) := by
    funext ⟨item, span⟩
    cases item <;> rfl
  simp only [ofLexemes, shift, List.filterMap_map, htoken, hdiagnostic, List.map_filterMap]

theorem item_shift (k : Nat) (l : Lexed) :
    (l.shift k).tokens.map Spanned.item = l.tokens.map Spanned.item := by
  rw [shift, List.map_map]
  rfl

end Lexed

theorem lex_eq_ofLexemes (text : String) : lex text = .ofLexemes (lexemes 0 text.toList) := rfl

/-- The lexemes from some offset on are those of the text, moved by it. -/
theorem shift_lex (k : Nat) (text : String) :
    (lex text).shift k = .ofLexemes (lexemes k text.toList) := by
  rw [lex_eq_ofLexemes, ← Lexed.ofLexemes_shift, ← lexemes_shift, Nat.zero_add]

/-! ## Two texts with a separator between them

The first text must close its quotations, which is so if the number of its quotes is even.
-/

section
variable {a b : String} {c : Char}

theorem separates_of_isBlank (h : isBlank c = true) (rest : List Char) : Separates (c :: rest) := by
  intro d hd
  cases hd
  exact ⟨isWordPart_of_isBlank h, ne_quote_of_isBlank h⟩

theorem separates_dot (rest : List Char) : Separates ('.' :: rest) := by
  intro d hd
  cases hd
  decide

/-- A blank adds nothing: first come the tokens and reports of the one text, then those of the
other, moved behind the blank. -/
theorem lex_append_blank (hquotes : a.toList.count '"' % 2 = 0) (hc : isBlank c = true) :
    lex (a ++ String.singleton c ++ b) = lex a ++ (lex b).shift (a.utf8ByteSize + 1) := by
  have htext : (a ++ String.singleton c ++ b).toList = a.toList ++ c :: b.toList := by simp
  rw [shift_lex, lex_eq_ofLexemes, lex_eq_ofLexemes, htext,
    lexemes_append hquotes (separates_of_isBlank hc _), lexemes_cons_of_blank hc,
    utf8Size_of_isBlank hc, Nat.zero_add, ← utf8ByteSize_eq, Lexed.ofLexemes_append]

/-- A dot adds its own token between them. -/
theorem lex_append_dot (hquotes : a.toList.count '"' % 2 = 0) :
    lex (a ++ "." ++ b) =
      lex a ++ Lexed.dotAt a.utf8ByteSize ++ (lex b).shift (a.utf8ByteSize + 1) := by
  have htext : (a ++ "." ++ b).toList = a.toList ++ '.' :: b.toList := by simp
  have hdot : Lexed.ofLexemes [⟨.token .dot, a.utf8ByteSize, a.utf8ByteSize + 1⟩] =
    Lexed.dotAt a.utf8ByteSize := rfl
  rw [shift_lex, lex_eq_ofLexemes, lex_eq_ofLexemes, htext,
    lexemes_append hquotes (separates_dot _), lexemes_dot, Nat.zero_add, ← utf8ByteSize_eq,
    ← hdot, ← Lexed.ofLexemes_append, ← Lexed.ofLexemes_append, List.append_assoc,
    List.singleton_append]

end

/-! ## Two names with a dot between them

Names are joined by a dot, and split at any dot between two of their parts.
-/

theorem Dotted.ne_nil {ts : List Token} {ps : List String} (h : Dotted ts ps) : ps ≠ [] := by
  cases h with
  | single => exact List.cons_ne_nil _ _
  | cons => exact List.cons_ne_nil _ _

/-- Two names with a dot between them are a name with the parts of both. -/
theorem Dotted.append {ts us : List Token} {ps qs : List String} (hts : Dotted ts ps)
    (hus : Dotted us qs) : Dotted (ts ++ .dot :: us) (ps ++ qs) := by
  induction hts with
  | single ht => exact .cons ht hus
  | cons ht _ ih => exact .cons ht ih

/-- A name is cut at any of its dots. -/
theorem Dotted.exists_parts {us : List Token} {parts : List String} :
    ∀ {ts : List Token}, Dotted (ts ++ .dot :: us) parts →
      ∃ ps qs, Dotted ts ps ∧ Dotted us qs ∧ parts = ps ++ qs
  | [], h => by
    cases h with
    | single ht => cases ht
    | cons ht _ => cases ht
  | [t], h => by
    cases h with
    | @cons _ p _ qs ht hus => exact ⟨[p], qs, .single ht, hus, rfl⟩
  | t :: u :: ts, h => by
    cases h with
    | @cons _ p _ _ ht hts =>
      obtain ⟨ps, qs, hps, hqs, rfl⟩ := hts.exists_parts
      exact ⟨p :: ps, qs, .cons ht hps, hqs, rfl⟩

/-- Whatever is a name around some dot is a name on either side of it, and the other way around. -/
theorem dotted_append_iff {ts us : List Token} {parts : List String} :
    Dotted (ts ++ .dot :: us) parts ↔
      ∃ ps qs, Dotted ts ps ∧ Dotted us qs ∧ parts = ps ++ qs := by
  constructor
  · exact Dotted.exists_parts
  · rintro ⟨ps, qs, hps, hqs, rfl⟩
    exact hps.append hqs

section
variable {a b : String} {parts : List String}

/-- A name that has parts has tokens that follow the grammar. -/
theorem nameParts_eq_ok_iff_dotted {text : String} (hne : parts ≠ []) :
    nameParts text = .ok parts ↔
      (lex text).diagnostics = [] ∧ Dotted ((lex text).tokens.map Spanned.item) parts := by
  rw [nameParts_eq_ok_iff, Named, or_iff_right]
  exact fun h => hne h.2

/-- With a dot between them, two texts have stray pieces if one of them has, and else their tokens
with the dot between. -/
theorem lex_append_dot_named (hquotes : a.toList.count '"' % 2 = 0) :
    ((lex (a ++ "." ++ b)).diagnostics = [] ↔
        (lex a).diagnostics = [] ∧ (lex b).diagnostics = [])
      ∧ (lex (a ++ "." ++ b)).tokens.map Spanned.item =
        (lex a).tokens.map Spanned.item ++ .dot :: (lex b).tokens.map Spanned.item := by
  rw [lex_append_dot hquotes]
  constructor
  · simp [Lexed.dotAt, Lexed.shift]
  · rw [Lexed.tokens_append, Lexed.tokens_append, List.map_append, List.map_append,
      Lexed.item_shift, List.append_assoc]
    rfl

/-- A name is read as two names if it is cut at a dot that is not in a quotation. -/
theorem nameParts_append_dot (hquotes : a.toList.count '"' % 2 = 0) :
    nameParts (a ++ "." ++ b) = .ok parts ↔
      ∃ ps qs, ps ≠ [] ∧ qs ≠ [] ∧ nameParts a = .ok ps ∧ nameParts b = .ok qs
        ∧ parts = ps ++ qs := by
  obtain ⟨hdiagnostics, htokens⟩ := lex_append_dot_named (b := b) hquotes
  constructor
  · intro h
    obtain ⟨hlex, ⟨hnil, -⟩ | hdotted⟩ := nameParts_eq_ok_iff.mp h
    -- a name without tokens has no dot
    · rw [hnil] at htokens
      cases (List.append_eq_nil_iff.mp htokens.symm).2
    · rw [htokens] at hdotted
      obtain ⟨ha, hb⟩ := hdiagnostics.mp hlex
      obtain ⟨ps, qs, hps, hqs, rfl⟩ := dotted_append_iff.mp hdotted
      exact ⟨ps, qs, hps.ne_nil, hqs.ne_nil,
        (nameParts_eq_ok_iff_dotted hps.ne_nil).mpr ⟨ha, hps⟩,
        (nameParts_eq_ok_iff_dotted hqs.ne_nil).mpr ⟨hb, hqs⟩, rfl⟩
  · rintro ⟨ps, qs, hps, hqs, ha, hb, rfl⟩
    obtain ⟨ha, hdotted⟩ := (nameParts_eq_ok_iff_dotted hps).mp ha
    obtain ⟨hb, hdotted'⟩ := (nameParts_eq_ok_iff_dotted hqs).mp hb
    apply nameParts_eq_ok_iff.mpr
    refine ⟨hdiagnostics.mpr ⟨ha, hb⟩, .inr ?_⟩
    rw [htokens]
    exact dotted_append_iff.mpr ⟨ps, qs, hdotted, hdotted', rfl⟩

end

/-- **Separators separate.**  If the quotations of a text are all closed, then behind a blank or a
dot lexing starts afresh: what comes out are the tokens and reports of the two texts, those of the
second moved by the length of what stands before it, with the dot in between if there is one.  So a
text with a dot behind such a text is a name exactly if both sides are names that are not empty. -/
theorem lex_separated (a b : String) (hquotes : a.toList.count '"' % 2 = 0) :
    (∀ c ∈ [' ', '\t', '\r', '\n', '\x0c'],
        lex (a ++ String.singleton c ++ b) = lex a ++ (lex b).shift (a.utf8ByteSize + 1))
      ∧ lex (a ++ "." ++ b) =
        lex a ++ Lexed.dotAt a.utf8ByteSize ++ (lex b).shift (a.utf8ByteSize + 1)
      ∧ ∀ parts, nameParts (a ++ "." ++ b) = .ok parts ↔
        ∃ ps qs, ps ≠ [] ∧ qs ≠ [] ∧ nameParts a = .ok ps ∧ nameParts b = .ok qs
          ∧ parts = ps ++ qs := by
  refine ⟨?_, lex_append_dot hquotes, fun parts => nameParts_append_dot hquotes⟩
  intro c hc
  have hblank : isBlank c = true := by
    simp only [List.mem_cons, List.not_mem_nil, or_false] at hc
    rcases hc with rfl | rfl | rfl | rfl | rfl <;> decide
  exact lex_append_blank hquotes hblank

/-- A blank keeps two quotations apart, which would be one without it.  The dot in the first one
does not cut the name. -/
theorem lex_separated_quotations :
    let a := "\"é.\"\"\""
    let b := "\"B\""
    a.toList.count '"' % 2 = 0 ∧ '\t' ∈ [' ', '\t', '\r', '\n', '\x0c']
      ∧ lex (a ++ String.singleton '\t' ++ b) = lex a ++ (lex b).shift 8
      ∧ lex (a ++ "." ++ b) = lex a ++ Lexed.dotAt 7 ++ (lex b).shift 8
      ∧ nameParts (a ++ "." ++ b) = .ok ["é.\"", "B"] := by
  intro a b
  have hquotes : a.toList.count '"' % 2 = 0 := by decide +kernel
  have htab : '\t' ∈ [' ', '\t', '\r', '\n', '\x0c'] := by decide
  have hsize : a.utf8ByteSize = 7 := by decide +kernel
  have ha : nameParts a = .ok ["é.\""] := by decide +kernel
  have hb : nameParts b = .ok ["B"] := by decide +kernel
  obtain ⟨hblank, hdot, hparts⟩ := lex_separated a b hquotes
  rw [hsize] at hblank hdot
  exact ⟨hquotes, htab, hblank _ htab, hdot,
    (hparts _).mpr ⟨_, _, List.cons_ne_nil _ _, List.cons_ne_nil _ _, ha, hb, rfl⟩⟩

end SqlVet
