import SqlVet.Proofs.Name.Separation
import Mathlib.Data.List.Forall2

/-!
# Reading shown tokens back

What is lexed of tokens that are shown with a separator between any two:

* `Token.StandsAlone`: a token leads a text that shows it, if something follows that keeps it apart;
* `Separator`: a blank or a dot keeps tokens apart, and is no token or one of its own;
* `lex_join`: so the tokens come back, and the separators with them;
* `named_join_iff`: joined by dots they are a name, exactly if each of them stands for a part;
* `nameParts_quotedName`: so a name whose parts are all quoted is read as these parts, whatever is
  in them, if only none is empty.
-/

namespace SqlVet

section
variable {c : Char} {t : Token} {ts between : List Token} {rest : List Char}

/-! ## Tokens and separators

A token stands alone if it is read as itself before whatever ends tokens.  Blanks and dots do, and
of these only the dot is read itself.
-/

/-- A token that is lexed as itself where it is shown. -/
def Token.StandsAlone (t : Token) : Prop :=
  ∀ rest, Separates rest → Leads (t.text.toList ++ rest) ⟨.token t, t.text.toList, rest⟩

theorem toList_quote (name : String) :
    (quote name).toList = '"' :: (Quoted.encode name.toList ++ ['"']) := by
  simp [quote]

/-- Quoted names stand alone, whatever is in them. -/
theorem Token.standsAlone_quoted (name : String) : (Token.quoted name).StandsAlone := by
  intro rest hrest
  have hquote : rest.head? ≠ some '"' := fun h => (hrest _ h).2 rfl
  have hleads := Leads.quoted name.toList hquote
  rw [String.ofList_toList] at hleads
  rwa [Token.text, toList_quote, List.cons_append, List.append_assoc, List.singleton_append]

theorem Token.standsAlone_dot : Token.dot.StandsAlone :=
  fun rest _ => .dot rest

/-- A character that keeps tokens apart, and the tokens that it is itself. -/
structure Separator (c : Char) (between : List Token) : Prop where
  separates : ∀ rest, Separates (c :: rest)
  lexed : ∀ offset rest, ∃ offset', (lexemes offset (c :: rest)).map Spanned.item =
    between.map Lexeme.token ++ (lexemes offset' rest).map Spanned.item

theorem separator_of_isBlank (h : isBlank c = true) : Separator c [] where
  separates := separates_of_isBlank h
  lexed offset rest := ⟨offset + c.utf8Size, by rw [lexemes_cons_of_blank h]; rfl⟩

theorem separator_dot : Separator '.' [.dot] where
  separates := separates_dot
  lexed offset rest := ⟨offset + 1, by rw [lexemes_dot]; rfl⟩

/-! ## What is lexed of them

The lexemes of tokens with a separator between them, by induction on the tokens.
-/

/-- A token that stands alone is the first that is read, and what separates is read next. -/
theorem Token.StandsAlone.item_lexemes (ht : t.StandsAlone) (hrest : Separates rest)
    (offset : Nat) :
    ∃ offset', (lexemes offset (t.text.toList ++ rest)).map Spanned.item =
      .token t :: (lexemes offset' rest).map Spanned.item := by
  rw [(ht rest hrest).lexemes_eq]
  exact ⟨_, rfl⟩

/-- Tokens that stand alone are read back from a text with separators between them, and the
separators with them if they are read as something. -/
theorem item_lexemes_join (hc : Separator c between) (hts : ∀ t ∈ ts, t.StandsAlone)
    (offset : Nat) :
    (lexemes offset ([c].intercalate (ts.map fun t => t.text.toList))).map Spanned.item =
      (between.intercalate (ts.map fun t => [t])).map Lexeme.token := by
  induction ts generalizing offset with
  | nil => exact congrArg (List.map Spanned.item) (lexemes_nil offset)
  | cons t ts ih =>
    obtain ⟨ht, hts⟩ := List.forall_mem_cons.mp hts
    cases ts with
    | nil =>
      have hend : Separates [] := nofun
      obtain ⟨stop, hlast⟩ := ht.item_lexemes hend offset
      rw [List.append_nil, lexemes_nil] at hlast
      simpa only [List.map_cons, List.map_nil, List.intercalate_singleton] using hlast
    | cons u ts =>
      simp only [List.map_cons, List.intercalate_cons_cons, List.append_assoc,
        List.singleton_append, List.map_append] at ih ⊢
      obtain ⟨next, hfirst⟩ := ht.item_lexemes (hc.separates _) offset
      obtain ⟨after, hbetween⟩ := hc.lexed next _
      rw [hfirst, hbetween, ih hts, List.cons_append]

/-- What is lexed of a text: these tokens, and nothing stray. -/
def LexedAs (text : String) (ts : List Token) : Prop :=
  (lex text).tokens.map Spanned.item = ts ∧ (lex text).diagnostics = []

/-- There are these tokens and no reports exactly if these tokens are all the lexemes. -/
theorem filterMap_token?_iff {ls : List (Spanned Lexeme)} :
    (ls.filterMap Lexeme.token?).map Spanned.item = ts ∧ ls.filterMap Lexeme.diagnostic? = []
      ↔ ls.map Spanned.item = ts.map Lexeme.token := by
  induction ls generalizing ts with
  | nil => simp [eq_comm]
  | cons l ls ih =>
    obtain ⟨item, span⟩ := l
    cases item with
    | token u =>
      cases ts with
      | nil => simp [Lexeme.token?]
      | cons t ts => simp [Lexeme.token?, Lexeme.diagnostic?, ← ih, and_assoc]
    | stray slice => cases ts <;> simp [Lexeme.token?, Lexeme.diagnostic?]

theorem lexedAs_iff {text : String} :
    LexedAs text ts ↔ (lexemes 0 text.toList).map Spanned.item = ts.map Lexeme.token :=
  filterMap_token?_iff

/-- Tokens that are joined come back, and the separators between them. -/
theorem lex_join (hc : Separator c between) (hts : ∀ t ∈ ts, t.StandsAlone) :
    LexedAs ((String.singleton c).intercalate (ts.map Token.text))
      (between.intercalate (ts.map fun t => [t])) := by
  apply lexedAs_iff.mpr
  have hjoined := item_lexemes_join hc hts 0
  rwa [String.toList_intercalate, String.toList_singleton, List.map_map]

/-! ## Tokens with dots between them

With dots between them tokens make up a name if each is a part.
-/

theorem dotted_singleton_iff {ps : List String} :
    Dotted [t] ps ↔ ∃ p, t.IsPart p ∧ ps = [p] := by
  constructor
  · intro h
    cases h with
    | single ht => exact ⟨_, ht, rfl⟩
  · rintro ⟨p, ht, rfl⟩
    exact .single ht

/-- Dots put between tokens make a name of them if all tokens are parts, and not else. -/
theorem dotted_join_iff {ps : List String} (hne : ts ≠ []) :
    Dotted ([Token.dot].intercalate (ts.map fun t => [t])) ps
      ↔ List.Forall₂ Token.IsPart ts ps := by
  induction ts generalizing ps with
  | nil => exact absurd rfl hne
  | cons t ts ih =>
    cases ts with
    | nil =>
      rw [List.map_cons, List.map_nil, List.intercalate_singleton, dotted_singleton_iff]
      simp [List.forall₂_cons_left_iff]
    | cons u ts =>
      simp only [List.map_cons, List.intercalate_cons_cons] at ih ⊢
      rw [List.append_assoc, List.singleton_append (x := Token.dot), dotted_append_iff,
        List.forall₂_cons_left_iff]
      constructor
      · rintro ⟨ps, qs, hps, hqs, rfl⟩
        obtain ⟨p, ht, rfl⟩ := dotted_singleton_iff.mp hps
        exact ⟨p, qs, ht, (ih (List.cons_ne_nil u ts)).mp hqs, rfl⟩
      · rintro ⟨p, qs, ht, hqs, rfl⟩
        exact ⟨[p], qs, .single ht, (ih (List.cons_ne_nil u ts)).mpr hqs, rfl⟩

/-- So the text of such tokens is a name whose parts are theirs. -/
theorem named_join_iff {ps : List String} (hts : ∀ t ∈ ts, t.StandsAlone) (hne : ts ≠ []) :
    Named (".".intercalate (ts.map Token.text)) ps ↔ List.Forall₂ Token.IsPart ts ps := by
  obtain ⟨htokens, hdiagnostics⟩ := lex_join separator_dot hts
  have hdot : String.singleton '.' = "." := rfl
  rw [hdot] at htokens hdiagnostics
  rw [← dotted_join_iff hne, Named, ← htokens, and_iff_right hdiagnostics, or_iff_right]
  rintro ⟨hnil, -⟩
  rw [hnil, List.map_nil] at htokens
  cases ts with
  | nil => exact hne rfl
  | cons t ts => cases ts <;> cases htokens

end

/-! ## Quoted names

A closing quote is followed by a dot or by nothing, so no quotation runs on into the next.
-/

/-- The text of a name with every part quoted. -/
def quotedName (parts : List String) : String :=
  ".".intercalate (parts.map fun p => (Token.quoted p).text)

theorem isPart_quoted_iff {p : String} : (Token.quoted p).IsPart p ↔ p ≠ "" := by
  constructor
  · intro h
    cases h with
    | quoted hp => exact hp
  · exact .quoted

/-- So a quoted name is a name, with the parts that were quoted, if none of them is empty. -/
theorem named_quotedName_iff {parts : List String} :
    Named (quotedName parts) parts ↔ ∀ p ∈ parts, p ≠ "" := by
  by_cases hne : parts = []
  · subst hne
    have hnone : lex (quotedName []) = ⟨[], []⟩ := congrArg Lexed.ofLexemes (lexemes_nil 0)
    simp [Named, hnone]
  · have hts : ∀ t ∈ parts.map Token.quoted, t.StandsAlone :=
      List.forall_mem_map.mpr fun p _ => Token.standsAlone_quoted p
    have htext : quotedName parts = ".".intercalate ((parts.map Token.quoted).map Token.text) := by
      rw [quotedName, List.map_map]
      rfl
    rw [htext, named_join_iff hts (mt List.map_eq_nil_iff.mp hne), List.forall₂_map_left_iff,
      List.forall₂_same]
    simp only [isPart_quoted_iff]

/-- **A quoted name reads back.**  Whatever its parts are, a name with every part quoted is read as
these parts, exactly if none of them is empty. -/
theorem nameParts_quotedName (parts : List String) :
    nameParts (quotedName parts) = .ok parts ↔ ∀ p ∈ parts, p ≠ "" := by
  rw [nameParts_eq_ok_iff]
  exact named_quotedName_iff

example : quotedName ["x.Y", "\"é\""] = "\"x.Y\".\"\"\"é\"\"\"" := by decide +kernel

end SqlVet
