import SqlVet.Proofs.Name.Relex

/-!
# Reading a shown name back

Function names are shown without quotes, so a name is read back from what is shown of it only if
none of its parts needs them.  Lengths tell: a token stands for no more characters than it takes up,
and a quotation for less.

* `length_chars_lexemes`: so what the tokens of a text stand for is no longer than the text, and
  shorter if one of them is quoted;
* `Dotted.flatMap_value`: but the tokens of a name that is read back stand for all of it;
* `nameParts_intercalate_iff`: so parts are read back exactly if all of them are plain words;
* `FunctionName.ofText_text_iff`: and a function name, if it is one that a text can have.
-/

namespace SqlVet

/-! ## What tokens stand for

What a name shows of its parts is the text of the tokens, less what quoting has added.  Quoting only
ever adds, so the lengths tell whether there is any.
-/

namespace Lexeme

/-- The characters of what a lexeme stands for; what is stray stands for nothing. -/
def chars : Lexeme → List Char
  | .token t => t.value.toList
  | .stray _ => []

def Quoted : Lexeme → Prop
  | .token (.quoted _) => True
  | .token (.word _) | .token .dot | .stray _ => False

end Lexeme

section
variable {text : List Char} {k : Cut}

theorem Quoted.length_le_encode (name : List Char) : name.length ≤ (encode name).length := by
  induction name with
  | nil => rfl
  | cons c name ih =>
    rw [encode]
    split
    · simp only [List.length_cons]
      omega
    · simp only [List.length_cons]
      omega

/-- A lexeme stands for no more characters than its slice has, and for fewer if it is quoted. -/
theorem Leads.length_chars (h : Leads text k) :
    k.lexeme.chars.length ≤ k.slice.length
      ∧ (k.lexeme.Quoted → k.lexeme.chars.length < k.slice.length) := by
  cases h with
  | dot => exact ⟨Nat.le_refl 1, False.elim⟩
  | word => exact ⟨by simp [Lexeme.chars, Token.value, fold], False.elim⟩
  | quoted name hrest =>
    have hlength := Quoted.length_le_encode name
    simp only [Lexeme.chars, Token.value, String.toList_ofList, List.length_cons,
      List.length_append, List.length_nil]
    omega
  | unclosed | stray => exact ⟨Nat.zero_le _, False.elim⟩

/-- So all lexemes of a text stand for no more characters than it has, and for fewer if one of them
is quoted. -/
theorem length_chars_lexemes (offset : Nat) (cs : List Char) :
    let total := ((lexemes offset cs).flatMap fun l => l.item.chars).length
    total ≤ cs.length
      ∧ ((∃ l ∈ lexemes offset cs, l.item.Quoted) → total < cs.length) := by
  fun_induction lexemes offset cs with
  | case1 => exact ⟨Nat.le_refl 0, by simp⟩
  | case2 offset c cs hblank ih =>
    exact ⟨Nat.le_succ_of_le ih.1, fun h => Nat.lt_succ_of_lt (ih.2 h)⟩
  | case3 offset c cs hblank first stop ih =>
    have hleads : Leads (c :: cs) first := leads_cut (Bool.not_eq_true _ ▸ hblank) cs
    obtain ⟨hfirst, hfirst_quoted⟩ := hleads.length_chars
    obtain ⟨hrest, hrest_quoted⟩ := ih
    have hlength := congrArg List.length hleads.slice_append_rest
    rw [List.length_append] at hlength
    simp only [List.flatMap_cons, List.length_append]
    refine ⟨by omega, ?_⟩
    rintro ⟨l, hl, hquoted⟩
    -- one side is shorter, and the other is no longer
    rcases List.mem_cons.mp hl with rfl | hl
    · have hshorter := hfirst_quoted hquoted
      omega
    · have hshorter := hrest_quoted ⟨l, hl, hquoted⟩
      omega

end

/-! ## What names stand for

A dotted name shows the values of its tokens one behind another, dots included.
-/

section
variable {t : Token} {ts : List Token} {p : String} {parts : List String}

theorem Token.IsPart.value_eq (h : t.IsPart p) : t.value = p := by
  cases h <;> rfl

theorem Dotted.exists_isPart (h : Dotted ts parts) (hp : p ∈ parts) : ∃ t ∈ ts, t.IsPart p := by
  induction h with
  | single ht =>
    rw [List.mem_singleton.mp hp]
    exact ⟨_, List.mem_cons_self, ht⟩
  | @cons t q ts ps ht _ ih =>
    rcases List.mem_cons.mp hp with rfl | hp
    · exact ⟨t, List.mem_cons_self, ht⟩
    · obtain ⟨u, hu, hpart⟩ := ih hp
      exact ⟨u, List.mem_cons_of_mem t (List.mem_cons_of_mem .dot hu), hpart⟩

/-- The values of its tokens, dots between them, are what a dotted name shows. -/
theorem Dotted.flatMap_value (h : Dotted ts parts) :
    (ts.flatMap fun t => t.value.toList) = ['.'].intercalate (parts.map String.toList) := by
  induction h with
  | @single t p ht =>
    rw [List.map_singleton, List.intercalate_singleton, List.flatMap_singleton, ht.value_eq]
  | @cons t p ts ps ht hts ih =>
    obtain ⟨q, qs, rfl⟩ := List.exists_cons_of_ne_nil hts.ne_nil
    simp only [List.map_cons, List.intercalate_cons_cons, List.append_assoc,
      List.flatMap_cons] at ih ⊢
    rw [ih, ht.value_eq]
    rfl

/-- What the lexemes of a text stand for are the values of its tokens. -/
theorem flatMap_chars_of_lexedAs {text : String} (h : LexedAs text ts) :
    ((lexemes 0 text.toList).flatMap fun l => l.item.chars) =
      ts.flatMap fun t => t.value.toList := by
  have hitems := congrArg (List.flatMap Lexeme.chars) (lexedAs_iff.mp h)
  rwa [List.flatMap_map, List.flatMap_map] at hitems

/-- Joined by dots, parts come back exactly if each of them is a plain word.  A part of any other
spelling would have to be quoted, and then what is read back would be shorter than the text. -/
theorem nameParts_intercalate_iff (hne : parts ≠ []) :
    nameParts (".".intercalate parts) = .ok parts ↔ ∀ p ∈ parts, PlainWord p := by
  constructor
  · intro h p hp
    obtain ⟨hdiagnostics, hdotted⟩ := (nameParts_eq_ok_iff_dotted hne).mp h
    obtain ⟨t, ht, hpart⟩ := hdotted.exists_isPart hp
    obtain ⟨s, hs, hitem⟩ := List.mem_map.mp ht
    have htotal := flatMap_chars_of_lexedAs ⟨rfl, hdiagnostics⟩
    rw [hdotted.flatMap_value] at htotal
    cases hpart with
    | word =>
      have hcanonical := canonical_of_mem_tokens hs
      rwa [hitem] at hcanonical
    | quoted =>
      -- the tokens would stand for less than the text, but they stand for all of it
      have hlexeme := mem_tokens_lex hs
      have hquoted : (Lexeme.token s.item).Quoted := by
        rw [hitem]
        trivial
      have hlt := (length_chars_lexemes 0 _).2 ⟨_, hlexeme, hquoted⟩
      rw [htotal, String.toList_intercalate] at hlt
      exact absurd hlt (Nat.lt_irrefl _)
  · intro h
    have hts : ∀ t ∈ parts.map Token.word, t.StandsAlone :=
      List.forall_mem_map.mpr fun p hp => (h p hp).standsAlone
    have htext : parts = (parts.map Token.word).map Token.text := by
      rw [List.map_map]
      exact (List.map_id parts).symm
    have hnamed : Named (".".intercalate parts) parts := by
      rw [htext, named_join_iff hts (mt List.map_eq_nil_iff.mp hne), ← htext,
        List.forall₂_map_left_iff, List.forall₂_same]
      exact fun p _ => .word p
    exact nameParts_eq_ok_iff.mpr hnamed

end

/-- **A shown name reads back.**  What is shown of a function name is read as that name exactly if
the name is one that a text can have and all its parts are plain words: not one with a dot, a quote,
a space or a letter in upper case in it, and not the empty one. -/
theorem FunctionName.ofText_text_iff (n : FunctionName) :
    FunctionName.ofText n.text = .ok n ↔ n.WellScoped ∧ ∀ p ∈ n.parts, PlainWord p := by
  have hne : n.parts ≠ [] := List.ne_nil_of_length_pos n.length_parts.1
  rw [FunctionName.ofText_eq_ok_iff, FunctionName.text, nameParts_intercalate_iff hne, and_comm]

/-- A dot in a part divides it. -/
example :
    FunctionName.ofText (FunctionName.text ⟨none, none, "a.b"⟩) = .ok ⟨none, some "a", "b"⟩ := by
  decide +kernel

end SqlVet
