import SqlVet.Proofs.Name.Case
import SqlVet.Proofs.Name.RoundTrip

/-!
# Lexing tokens again

What is lexed of a text can be shown and lexed again:

* `Token.Canonical`: any name can be quoted, but only some are words that need no quotes;
* `Leads.canonical`: no other tokens come of a text;
* `Token.Canonical.standsAlone`: and each of these is lexed as itself where it is shown;
* `lex_spaced`: so with spaces between them they come back, whatever the text was that they are
  from.
-/

namespace SqlVet

/-! ## Canonical tokens

The tokens that a lexer can give: words in lower case, with nothing in them that would end them, and
any quoted names and dots.
-/

/-- A word that stands for itself: it is spelled as words are, and has no letters that fold. -/
structure PlainWord (name : String) : Prop where
  /-- There is a first character, and it is neither a digit nor a dollar sign. -/
  first : ∃ c, name.toList.head? = some c ∧ isWordStart c = true
  inside : ∀ c ∈ name.toList, isWordPart c = true
  folded : ∀ c ∈ name.toList, c.isUpper = false

/-- The tokens that are shown as they are lexed. -/
def Token.Canonical : Token → Prop
  | .word name => PlainWord name
  | .quoted _ => True
  | .dot => True

section
variable {t : Token} {c : Char} {cs text : List Char} {name : String} {k : Cut}

/-- The lower-case form of a word is a word again. -/
theorem plainWord_fold (hc : isWordStart c = true) (hcs : ∀ d ∈ cs, isWordPart d = true) :
    PlainWord (fold (c :: cs)) where
  first := ⟨c.toLower, by simp [fold], by rwa [isWordStart_toLower]⟩
  inside := by
    intro d hd
    rw [fold, String.toList_ofList] at hd
    obtain ⟨e, he, rfl⟩ := List.mem_map.mp hd
    rw [isWordPart_toLower]
    rcases List.mem_cons.mp he with rfl | he
    · exact isWordPart_of_isWordStart hc
    · exact hcs e he
  folded := by
    intro d hd
    rw [fold, String.toList_ofList] at hd
    obtain ⟨e, -, rfl⟩ := List.mem_map.mp hd
    exact Char.isUpper_toLower_eq_false e

/-- A plain word is its own lower case. -/
theorem PlainWord.fold_eq (h : PlainWord name) : fold name.toList = name := by
  have hsame : name.toList.map Char.toLower = name.toList.map id := by
    apply List.map_congr_left
    intro c hc
    apply Char.toLower_eq_of_not_isUpper
    rw [h.folded c hc]
    exact Bool.false_ne_true
  rw [fold, hsame, List.map_id, String.ofList_toList]

/-- A token that is cut off is canonical. -/
theorem Leads.canonical (h : Leads text k) (hk : k.lexeme = .token t) : t.Canonical := by
  cases h with
  | dot => cases hk; trivial
  | word hc hcs hrest => cases hk; exact plainWord_fold hc hcs
  | quoted => cases hk; trivial
  | unclosed | stray => cases hk

theorem PlainWord.standsAlone (h : PlainWord name) : (Token.word name).StandsAlone := by
  intro rest hrest
  have hboundary : ∀ d ∈ rest.head?, isWordPart d = false := fun d hd => (hrest d hd).1
  obtain ⟨c, hfirst, hc⟩ := h.first
  obtain ⟨cs, hname⟩ := List.head?_eq_some_iff.mp hfirst
  have hcs : ∀ d ∈ cs, isWordPart d = true := by
    intro d hd
    apply h.inside
    rw [hname]
    exact List.mem_cons_of_mem c hd
  have hword := Leads.word hc hcs hboundary
  rwa [← hname, h.fold_eq, ← List.cons_append, ← hname] at hword

/-- Any canonical token is read as itself before whatever separates. -/
theorem Token.Canonical.standsAlone (h : t.Canonical) : t.StandsAlone := by
  cases t with
  | word name => exact PlainWord.standsAlone h
  | quoted name => exact Token.standsAlone_quoted name
  | dot => exact Token.standsAlone_dot

end

/-! ## Tokens with spaces between them

A space separates any two tokens and gives none itself.
-/

/-- Tokens as they are shown, with a space between any two. -/
def spaced (ts : List Token) : String := " ".intercalate (ts.map Token.text)

theorem intercalate_nil_singletons {α : Type} (xs : List α) :
    ([] : List α).intercalate (xs.map fun x => [x]) = xs := by
  induction xs with
  | nil => rfl
  | cons x xs ih =>
    cases xs with
    | nil => rfl
    | cons y xs =>
      simp only [List.map_cons, List.intercalate_cons_cons] at ih ⊢
      rw [ih]
      rfl

theorem canonical_of_mem_tokens {text : String} {t : Spanned Token}
    (h : t ∈ (lex text).tokens) : t.item.Canonical := by
  obtain ⟨before, slice, after, -, hleads, -⟩ := exists_leads_of_mem_lexemes (mem_tokens_lex h)
  exact hleads.canonical rfl

/-- Exactly the canonical tokens are read back from their spaced display. -/
theorem lexedAs_spaced_iff {ts : List Token} :
    LexedAs (spaced ts) ts ↔ ∀ t ∈ ts, t.Canonical := by
  constructor
  · rintro ⟨htokens, -⟩ t ht
    rw [← htokens] at ht
    obtain ⟨s, hs, rfl⟩ := List.mem_map.mp ht
    exact canonical_of_mem_tokens hs
  · intro h
    have hspace : Separator ' ' [] := separator_of_isBlank rfl
    have hjoined := lex_join hspace fun t ht => (h t ht).standsAlone
    rwa [intercalate_nil_singletons] at hjoined

/-- **Tokens are lexed again as they are.**  Only canonical tokens come of a text.  They, and no
others, come back where they are shown with spaces between them, with nothing to report.  So do the
tokens of any text, also of one in which something is stray. -/
theorem lex_spaced :
    (∀ text, ∀ t ∈ (lex text).tokens, t.item.Canonical)
      ∧ (∀ ts, LexedAs (spaced ts) ts ↔ ∀ t ∈ ts, t.Canonical)
      ∧ ∀ text, let ts := (lex text).tokens.map Spanned.item
        LexedAs (spaced ts) ts := by
  refine ⟨?_, ?_, ?_⟩
  · intro text t ht
    exact canonical_of_mem_tokens ht
  · intro ts
    exact lexedAs_spaced_iff
  · intro text ts
    apply lexedAs_spaced_iff.mpr
    intro t ht
    obtain ⟨s, hs, rfl⟩ := List.mem_map.mp ht
    exact canonical_of_mem_tokens hs

/-- Two quotes in a row stay in the quotation, and what is stray is left out. -/
theorem lex_spaced_strays :
    let text := "É$.(\"x \"\"Y\"B\""
    let ts := [Token.word "É$", .dot, .quoted "x \"Y", .word "b"]
    (lex text).tokens.map Spanned.item = ts ∧ (lex text).diagnostics.length = 2
      ∧ (⟨.word "b", 12, 13⟩ ∈ (lex text).tokens ∧ (Token.word "b").Canonical)
      ∧ (∀ t ∈ ts, t.Canonical) ∧ spaced ts = "É$ . \"x \"\"Y\" b" ∧ LexedAs (spaced ts) ts := by
  intro text ts
  have htokens : (lex text).tokens.map Spanned.item = ts := by decide +kernel
  have hdiagnostics : (lex text).diagnostics.length = 2 := by decide +kernel
  have hword : ⟨.word "b", 12, 13⟩ ∈ (lex text).tokens := by decide +kernel
  have hspaced : spaced ts = "É$ . \"x \"\"Y\" b" := by decide +kernel
  obtain ⟨hcanonical, hiff, hagain⟩ := lex_spaced
  have hlexed : LexedAs (spaced ts) ts := by
    rw [← htokens]
    exact hagain text
  exact ⟨htokens, hdiagnostics, ⟨hword, hcanonical text _ hword⟩, (hiff ts).mp hlexed, hspaced,
    hlexed⟩

end SqlVet
