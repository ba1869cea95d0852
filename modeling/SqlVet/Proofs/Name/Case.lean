import SqlVet.Catalog.Registry
import SqlVet.Proofs.Name.LongestMatch
import Mathlib

/-!
# Case outside of quotations

Outside of quotations only words have letters, and words are folded.  So it does not matter there in
which case a text is written:

* `foldOutside`: a text with its letters folded where an even number of quotes stands before them;
* `Leads.folded`: that is where no quotation is open, so folding leaves each lexeme as it is;
* `lexemes_foldOutside`: and a folded text has the same lexemes, at the same places;
* `lex_ignores_case`: so texts that fold to the same are lexed, read and registered alike.
-/

namespace SqlVet

/-! ## Characters in lower case

Lower case is a matter of ASCII letters.  They stay letters and stay one byte long, and every other
character is its own lower case.
-/

section
variable {c : Char}

/-- Folding changes letters only, and into letters. -/
theorem toLower_eq_or_isAlpha (c : Char) :
    c.toLower = c ∨ c.isAlpha = true ∧ c.toLower.isAlpha = true := by
  by_cases hupper : c.isUpper = true
  · have halpha : c.isAlpha = true := by rw [Char.isAlpha, hupper, Bool.true_or]
    exact .inr ⟨halpha, (Char.isAlpha_toLower_eq_isAlpha c).trans halpha⟩
  · exact .inl (Char.toLower_eq_of_not_isUpper hupper)

theorem isWordStart_of_isAlpha (h : c.isAlpha = true) : isWordStart c = true := by
  rw [isWordStart, h, Bool.true_or, Bool.true_or]

@[simp] theorem isWordStart_toLower (c : Char) : isWordStart c.toLower = isWordStart c := by
  rcases toLower_eq_or_isAlpha c with h | ⟨hc, hlower⟩
  · rw [h]
  · rw [isWordStart_of_isAlpha hc, isWordStart_of_isAlpha hlower]

@[simp] theorem isWordPart_toLower (c : Char) : isWordPart c.toLower = isWordPart c := by
  rcases toLower_eq_or_isAlpha c with h | ⟨hc, hlower⟩
  · rw [h]
  · rw [isWordPart_of_isWordStart (isWordStart_of_isAlpha hc),
      isWordPart_of_isWordStart (isWordStart_of_isAlpha hlower)]

/-- What cannot begin a word is left as it is, quotes and dots included. -/
theorem toLower_of_not_isWordStart (h : isWordStart c = false) : c.toLower = c := by
  rcases toLower_eq_or_isAlpha c with hc | ⟨hc, -⟩
  · exact hc
  · rw [isWordStart_of_isAlpha hc] at h
    cases h

@[simp] theorem toLower_eq_quote_iff : c.toLower = '"' ↔ c = '"' := by
  constructor
  · intro h
    rcases toLower_eq_or_isAlpha c with hc | ⟨-, hlower⟩
    · rwa [hc] at h
    · rw [h] at hlower
      exact absurd hlower (by decide)
  · rintro rfl
    rfl

theorem utf8Size_of_isAlpha (h : c.isAlpha = true) : c.utf8Size = 1 := by
  rw [Char.utf8Size_eq_one_iff]
  simp only [Char.isAlpha, Char.isUpper, Char.isLower, Bool.or_eq_true, Bool.and_eq_true,
    decide_eq_true_eq] at h
  rcases h with ⟨-, h⟩ | ⟨-, h⟩
  · exact UInt32.le_trans h (by decide)
  · exact UInt32.le_trans h (by decide)

@[simp] theorem utf8Size_toLower (c : Char) : c.toLower.utf8Size = c.utf8Size := by
  rcases toLower_eq_or_isAlpha c with h | ⟨hc, hlower⟩
  · rw [h]
  · rw [utf8Size_of_isAlpha hc, utf8Size_of_isAlpha hlower]

/-- A word means the same in lower case. -/
theorem fold_map_toLower (cs : List Char) : fold (cs.map Char.toLower) = fold cs := by
  rw [fold, List.map_map]
  simp only [Function.comp_def, Char.toLower_toLower_eq_toLower]
  rfl

end

/-! ## Folding outside of quotations

To fold a text outside of its quotations is to count the quotes from the left: a character is inside
if their number is odd.  Since doubled quotes come in twos, quotations as a whole leave the number
even.
-/

/-- Folds the characters that have an even number of quotes before them, where some stand before
the text already. -/
def foldOutside (quotes : Nat) : List Char → List Char
  | [] => []
  | c :: cs =>
    (if quotes % 2 = 0 then c.toLower else c)
      :: foldOutside (if c = '"' then quotes + 1 else quotes) cs

section
variable {quotes : Nat} {cs ds : List Char}

/-- The second of two texts is folded as the quotes of the first leave it. -/
theorem foldOutside_append (quotes : Nat) (cs ds : List Char) :
    foldOutside quotes (cs ++ ds) =
      foldOutside quotes cs ++ foldOutside (quotes + cs.count '"') ds := by
  induction cs generalizing quotes with
  | nil => rfl
  | cons c cs ih =>
    rw [List.cons_append, foldOutside, foldOutside, ih, List.cons_append]
    by_cases hc : c = '"'
    · subst hc
      rw [if_pos rfl, List.count_cons_self, Nat.add_right_comm quotes 1, Nat.add_assoc]
    · rw [if_neg hc, List.count_cons_of_ne hc]

/-- Only the parity of the quotes matters. -/
theorem foldOutside_congr {m n : Nat} (h : m % 2 = n % 2) (cs : List Char) :
    foldOutside m cs = foldOutside n cs := by
  induction cs generalizing m n with
  | nil => rfl
  | cons c cs ih =>
    rw [foldOutside, foldOutside, h]
    congr 1
    apply ih
    split <;> omega

/-- Without quotes, a text that begins outside is folded everywhere. -/
theorem foldOutside_of_no_quotes (heven : quotes % 2 = 0) (hcs : ∀ c ∈ cs, c ≠ '"') :
    foldOutside quotes cs = cs.map Char.toLower := by
  induction cs with
  | nil => rfl
  | cons c cs ih =>
    obtain ⟨hc, hcs⟩ := List.forall_mem_cons.mp hcs
    rw [foldOutside, if_pos heven, if_neg hc, ih hcs, List.map_cons]

/-- What is quoted stays as it is, since two quotes in a row change nothing behind them. -/
theorem foldOutside_encode (hodd : quotes % 2 = 1) (name : List Char) :
    foldOutside quotes (Quoted.encode name) = Quoted.encode name := by
  induction name generalizing quotes with
  | nil => rfl
  | cons c name ih =>
    have hne : ¬ quotes % 2 = 0 := by omega
    rw [Quoted.encode]
    split
    · have heven : (quotes + 1) % 2 = 0 := by omega
      simp only [foldOutside, if_neg hne, if_pos heven, if_true]
      rw [ih (by omega)]
      rfl
    · next hc => rw [foldOutside, if_neg hne, if_neg hc, ih hodd]

/-- A quotation that is never closed is left alone up to the end. -/
theorem foldOutside_unclosed (name : List Char) :
    foldOutside 0 ('"' :: Quoted.encode name) = '"' :: Quoted.encode name := by
  show '"' :: foldOutside 1 (Quoted.encode name) = _
  rw [foldOutside_encode rfl]

/-- A quotation is left alone, its quotes included. -/
theorem foldOutside_quotation (name : List Char) :
    foldOutside 0 ('"' :: (Quoted.encode name ++ ['"'])) =
      '"' :: (Quoted.encode name ++ ['"']) := by
  rw [← List.cons_append, foldOutside_append, foldOutside_unclosed]
  simp [foldOutside]

/-- Folding moves nothing: each character takes as many bytes as before. -/
theorem byteLength_foldOutside (quotes : Nat) (cs : List Char) :
    byteLength (foldOutside quotes cs) = byteLength cs := by
  induction cs generalizing quotes with
  | nil => rfl
  | cons c cs ih =>
    rw [foldOutside, byteLength_cons, byteLength_cons, ih]
    split
    · rw [utf8Size_toLower]
    · rfl

theorem head?_foldOutside (cs : List Char) :
    (foldOutside 0 cs).head? = cs.head?.map Char.toLower := by
  cases cs <;> rfl

end

/-! ## Lexing a folded text

What is cut off a folded text is what is cut off the text itself, folded.  By the induction over its
lexemes, a text and its folded form have the same lexemes in the same places.
-/

section
variable {text : List Char} {k : Cut}

/-- Behind a lexeme no quotation is open. -/
theorem Leads.foldOutside_text (h : Leads text k) :
    foldOutside 0 text = foldOutside 0 k.slice ++ foldOutside 0 k.rest := by
  rw [← h.slice_append_rest, foldOutside_append]
  by_cases hunclosed : k.lexeme.Unclosed
  · rw [h.rest_of_unclosed hunclosed]
    rfl
  · have heven : (0 + k.slice.count '"') % 2 = 0 % 2 := by
      have := h.count_slice.not.mp hunclosed
      omega
    rw [foldOutside_congr heven]

/-- A lexeme that leads a text leads the folded text as well, with its slice and the rest folded. -/
theorem Leads.folded (h : Leads text k) :
    Leads (foldOutside 0 text) ⟨k.lexeme, foldOutside 0 k.slice, foldOutside 0 k.rest⟩ := by
  rw [h.foldOutside_text]
  cases h with
  | dot rest => exact .dot _
  | @word c cs rest hc hcs hrest =>
    have hquotes : ∀ d ∈ c :: cs, d ≠ '"' := by
      intro d hd
      rcases List.mem_cons.mp hd with rfl | hd
      · exact ne_quote_of_isWordPart (isWordPart_of_isWordStart hc)
      · exact ne_quote_of_isWordPart (hcs d hd)
    -- a word in lower case is a word, and ends where it did
    have hstart : isWordStart c.toLower = true := by rwa [isWordStart_toLower]
    have hinside : ∀ d ∈ cs.map Char.toLower, isWordPart d = true := by
      intro d hd
      obtain ⟨e, he, rfl⟩ := List.mem_map.mp hd
      rw [isWordPart_toLower]
      exact hcs e he
    have hboundary : ∀ d ∈ (foldOutside 0 rest).head?, isWordPart d = false := by
      intro d hd
      rw [head?_foldOutside] at hd
      obtain ⟨e, he, rfl⟩ := Option.map_eq_some_iff.mp hd
      rw [isWordPart_toLower]
      exact hrest e he
    have hword := Leads.word hstart hinside hboundary
    rw [← List.map_cons, fold_map_toLower] at hword
    rw [foldOutside_of_no_quotes (Nat.zero_mod 2) hquotes]
    exact hword
  | @quoted name rest hrest =>
    have hboundary : (foldOutside 0 rest).head? ≠ some '"' := by
      intro hquote
      rw [head?_foldOutside] at hquote
      obtain ⟨e, he, hlower⟩ := Option.map_eq_some_iff.mp hquote
      exact hrest (he.trans (congrArg some (toLower_eq_quote_iff.mp hlower)))
    have hquoted := Leads.quoted name hboundary
    rw [foldOutside_quotation, List.cons_append, List.append_assoc]
    exact hquoted
  | unclosed name =>
    rw [foldOutside_unclosed]
    show Leads (_ ++ []) _
    rw [List.append_nil]
    exact .unclosed name
  | @stray c hc rest =>
    have hslice : foldOutside 0 [c] = [c] := by
      rw [foldOutside, if_pos (Nat.zero_mod 2), toLower_of_not_isWordStart hc.not_wordStart,
        foldOutside]
    rw [hslice]
    exact .stray hc _

/-- A folded text has the lexemes of the text, in the same places. -/
theorem lexemes_foldOutside (offset : Nat) (cs : List Char) :
    lexemes offset (foldOutside 0 cs) = lexemes offset cs := by
  fun_induction lexemes offset cs with
  | case1 => exact lexemes_nil _
  | case2 offset c cs hblank ih =>
    have hsame : c.toLower = c := toLower_of_not_isWordStart (isWordStart_of_isBlank hblank)
    have hcons : foldOutside 0 (c :: cs) = c :: foldOutside 0 cs := by
      rw [foldOutside, if_pos (Nat.zero_mod 2), if_neg (ne_quote_of_isBlank hblank), hsame]
    rw [hcons, lexemes_cons_of_blank hblank, ih]
  | case3 offset c cs hblank first stop ih =>
    have hleads : Leads (c :: cs) first := leads_cut (Bool.not_eq_true _ ▸ hblank) cs
    rw [hleads.folded.lexemes_eq, byteLength_foldOutside, ih]

end

/-! ## Texts that differ in case

Two texts that differ in case outside of quotations only have one and the same folded form, and so
have all that is read from it in common.
-/

/-- Two texts that differ at most in the case of letters of ASCII, and only of such letters as have
an even number of quotes before them. -/
def SameButCase (s t : String) : Prop :=
  s.toList.length = t.toList.length ∧ ∀ i < s.toList.length,
    s.toList[i]? = t.toList[i]?
      ∨ (s.toList.take i).count '"' % 2 = 0
        ∧ s.toList[i]?.map Char.toLower = t.toList[i]?.map Char.toLower

instance sameButCaseDecidable (s t : String) : Decidable (SameButCase s t) :=
  inferInstanceAs (Decidable (_ ∧ _))

/-- Places are counted from the beginning of what is left, and the quotes before it are counted
in. -/
theorem foldOutside_eq_of_same {quotes : Nat} {cs ds : List Char} (hlength : cs.length = ds.length)
    (h : ∀ i < cs.length, cs[i]? = ds[i]?
      ∨ (quotes + (cs.take i).count '"') % 2 = 0
        ∧ cs[i]?.map Char.toLower = ds[i]?.map Char.toLower) :
    foldOutside quotes cs = foldOutside quotes ds := by
  induction cs generalizing quotes ds with
  | nil =>
    obtain rfl := List.eq_nil_of_length_eq_zero hlength.symm
    rfl
  | cons c cs ih =>
    cases ds with
    | nil => cases hlength
    | cons d ds =>
      have hfirst : c = d ∨ quotes % 2 = 0 ∧ c.toLower = d.toLower := by
        simpa using h 0 (Nat.zero_lt_succ _)
      have hquote : c = '"' ↔ d = '"' := by
        rcases hfirst with rfl | ⟨-, hlower⟩
        · rfl
        · rw [← toLower_eq_quote_iff, hlower, toLower_eq_quote_iff]
      -- as the first characters are both quotes or both none, the count goes on from one number
      have hrest : foldOutside (if c = '"' then quotes + 1 else quotes) cs =
          foldOutside (if c = '"' then quotes + 1 else quotes) ds := by
        apply ih (Nat.succ.inj hlength)
        intro i hi
        have hcount : (if c = '"' then quotes + 1 else quotes) + (cs.take i).count '"' =
            quotes + ((c :: cs).take (i + 1)).count '"' := by
          rw [List.take_succ_cons, List.count_cons]
          simp only [beq_iff_eq]
          split <;> omega
        rw [hcount]
        exact h (i + 1) (Nat.succ_lt_succ hi)
      rw [foldOutside, foldOutside, hrest]
      simp only [hquote]
      rcases hfirst with rfl | ⟨heven, hlower⟩
      · rfl
      · rw [if_pos heven, if_pos heven, hlower]

section
variable {s t : String}

theorem SameButCase.foldOutside_eq (h : SameButCase s t) :
    foldOutside 0 s.toList = foldOutside 0 t.toList := by
  apply foldOutside_eq_of_same h.1
  simpa only [Nat.zero_add] using h.2

theorem SameButCase.lex_eq (h : SameButCase s t) : lex s = lex t := by
  rw [lex, lex, ← lexemes_foldOutside 0 s.toList, ← lexemes_foldOutside 0 t.toList,
    h.foldOutside_eq]

theorem SameButCase.utf8ByteSize_eq (h : SameButCase s t) : s.utf8ByteSize = t.utf8ByteSize := by
  rw [SqlVet.utf8ByteSize_eq, SqlVet.utf8ByteSize_eq, ← byteLength_foldOutside 0 s.toList,
    h.foldOutside_eq, byteLength_foldOutside]

theorem SameButCase.nameParts_eq (h : SameButCase s t) : nameParts s = nameParts t := by
  rw [nameParts, nameParts, h.lex_eq, h.utf8ByteSize_eq]

theorem SameButCase.ofText_eq (h : SameButCase s t) :
    FunctionName.ofText s = FunctionName.ofText t := by
  rw [FunctionName.ofText, FunctionName.ofText, h.nameParts_eq]

end

/-- **Case does not matter outside of quotations.**  Texts that differ in nothing else are lexed
alike, up to the last message, and so they are read alike as names, and registering under the one or
the other does the same to any registry. -/
theorem lex_ignores_case (s t : String) (h : SameButCase s t) :
    lex s = lex t ∧ nameParts s = nameParts t
      ∧ FunctionName.ofText s = FunctionName.ofText t
      ∧ ∀ (r : Registry) (signature : Signature), r.define s signature = r.define t signature
        ∧ (Registry.register s signature).run r = (Registry.register t signature).run r := by
  refine ⟨h.lex_eq, h.nameParts_eq, h.ofText_eq, ?_⟩
  intro r signature
  constructor
  · rw [Registry.define, Registry.define, h.ofText_eq]
  · rw [Registry.register, Registry.register, h.ofText_eq]

/-- The two quotes in a row stand in a quotation, so the letter behind them is not folded, while
those behind the closing quote are.  What is reported of the parenthesis is the same. -/
theorem lex_ignores_case_behind_quotes :
    let s := "ÉT.\"a\"\"B\".Fn("
    let t := "Ét.\"a\"\"B\".fN("
    SameButCase s t ∧ lex s = lex t ∧ nameParts s = nameParts t
      ∧ FunctionName.ofText s = FunctionName.ofText t
      ∧ ∀ (r : Registry) (signature : Signature), r.define s signature = r.define t signature
        ∧ (Registry.register s signature).run r = (Registry.register t signature).run r := by
  intro s t
  have hsame : SameButCase s t := by decide +kernel
  exact ⟨hsame, lex_ignores_case s t hsame⟩

end SqlVet
