import SqlVet.Name.Basic

/-!
# Quotations

Quoting and reading a quotation undo each other:

* `Quoted.decode_encode`, `unquote_quote`: a text can be read off its quotation;
* `quotedPart_eq_some_iff`: what is cut off behind an opening quote is the rest of a quotation, and
  the longest that there is, since no quote follows it;
* `quotedPart_eq_none_iff`: nothing is cut off if no quote closes the quotation, each being one of
  two;
* `quote_unquote`: so the token of a quoted part is written as it stands in the text.
-/

namespace SqlVet

/-! ## Doubled quotes

Inside of a quotation quotes stand doubled, and reading halves them again.
-/

namespace Quoted

theorem decode_cons_of_ne {c : Char} (h : c ≠ '"') (cs : List Char) :
    decode (c :: cs) = c :: decode cs := by
  rw [decode]
  intro cs' hc
  exact absurd hc h

/-- Halving quotes undoes doubling them. -/
theorem decode_encode (cs : List Char) : decode (encode cs) = cs := by
  induction cs with
  | nil => rfl
  | cons c cs ih =>
    rw [encode]
    split
    · next h => rw [decode, ih, h]
    · next h => rw [decode_cons_of_ne h, ih]

theorem count_encode (name : List Char) :
    (encode name).count '"' = 2 * name.count '"' := by
  induction name with
  | nil => rfl
  | cons c name ih =>
    rw [encode]
    split
    · next hc =>
      subst hc
      simp only [List.count_cons_self, ih]
      omega
    · next hc => simp only [List.count_cons_of_ne hc, ih]

end Quoted

/-- What is quoted is read back. -/
theorem unquote_quote (cs : List Char) :
    unquote ('"' :: Quoted.encode cs ++ ['"']) = String.ofList cs := by
  rw [unquote, List.cons_append, List.tail_cons, List.dropLast_concat, Quoted.decode_encode]

/-! ## Cutting a quotation off

A quotation ends at the first quote that has no second one behind it.  That is where what stands
before is doubled, and it is the only such place.
-/

/-- A quote that follows would belong to the quotation. -/
theorem quotedPart_encode (name : List Char) {rest : List Char} (h : rest.head? ≠ some '"') :
    quotedPart (Quoted.encode name ++ '"' :: rest) = some (Quoted.encode name ++ ['"'], rest) := by
  induction name with
  | nil =>
    cases rest with
    | nil => rfl
    | cons c rest =>
      have hc : c ≠ '"' := fun hc => h (congrArg some hc)
      simp [Quoted.encode, quotedPart, hc]
  | cons c name ih =>
    rw [Quoted.encode]
    split
    · rw [List.cons_append, List.cons_append, quotedPart, ih]
      rfl
    · next hc =>
      rw [List.cons_append, quotedPart, ih]
      · rfl
      · intro cs hquote
        exact absurd hquote hc
      · exact hc

/-- What is cut off is a doubled name and a closing quote, and no quote follows. -/
theorem exists_name_of_quotedPart {cs slice rest : List Char}
    (h : quotedPart cs = some (slice, rest)) :
    (∃ name, slice = Quoted.encode name ++ ['"']) ∧ rest.head? ≠ some '"' := by
  fun_induction quotedPart cs generalizing slice rest with
  | case1 => cases h
  | case2 cs ih =>
    obtain ⟨⟨s, r⟩, hc, he⟩ := Option.map_eq_some_iff.mp h
    cases he
    obtain ⟨⟨name, rfl⟩, hrest⟩ := ih hc
    exact ⟨⟨'"' :: name, rfl⟩, hrest⟩
  -- the closing quote: a second one behind it would have been the case before
  | case3 cs hclosed =>
    cases h
    refine ⟨⟨[], rfl⟩, ?_⟩
    intro hquote
    obtain ⟨tail, htail⟩ := List.head?_eq_some_iff.mp hquote
    exact hclosed tail htail
  | case4 c cs hpair hsingle ih =>
    obtain ⟨⟨s, r⟩, hc, he⟩ := Option.map_eq_some_iff.mp h
    cases he
    obtain ⟨⟨name, rfl⟩, hrest⟩ := ih hc
    refine ⟨⟨c :: name, ?_⟩, hrest⟩
    have hne : c ≠ '"' := hsingle
    rw [Quoted.encode, if_neg hne, List.cons_append]

/-- So what is cut off can be told by its form and by what follows it. -/
theorem quotedPart_eq_some_iff {cs slice rest : List Char} :
    quotedPart cs = some (slice, rest) ↔
      (∃ name, slice = Quoted.encode name ++ ['"']) ∧ rest.head? ≠ some '"'
        ∧ cs = slice ++ rest := by
  constructor
  · intro h
    obtain ⟨hname, hrest⟩ := exists_name_of_quotedPart h
    exact ⟨hname, hrest, (quotedPart_append h).symm⟩
  · rintro ⟨⟨name, rfl⟩, hrest, rfl⟩
    rw [List.append_assoc]
    exact quotedPart_encode name hrest

/-- Nothing is cut off if every quote is doubled. -/
theorem quotedPart_encode_eq_none (name : List Char) : quotedPart (Quoted.encode name) = none := by
  induction name with
  | nil => rfl
  | cons c name ih =>
    rw [Quoted.encode]
    split
    · rw [quotedPart, ih]
      rfl
    · next hc =>
      rw [quotedPart, ih]
      · rfl
      · intro cs hquote
        exact absurd hquote hc
      · exact hc

/-- A quotation is never closed if all of its quotes are doubled. -/
theorem quotedPart_eq_none_iff {cs : List Char} :
    quotedPart cs = none ↔ ∃ name, cs = Quoted.encode name := by
  constructor
  · intro h
    fun_induction quotedPart cs with
    | case1 => exact ⟨[], rfl⟩
    | case2 cs ih =>
      obtain ⟨name, rfl⟩ := ih (Option.map_eq_none_iff.mp h)
      exact ⟨'"' :: name, rfl⟩
    | case3 cs _ => cases h
    | case4 c cs _ hsingle ih =>
      obtain ⟨name, rfl⟩ := ih (Option.map_eq_none_iff.mp h)
      have hc : c ≠ '"' := hsingle
      exact ⟨c :: name, by rw [Quoted.encode, if_neg hc]⟩
  · rintro ⟨name, rfl⟩
    exact quotedPart_encode_eq_none name

/-- A quotation is cut off as the token of what stands in it. -/
theorem cut_quotation (name : List Char) {rest : List Char} (h : rest.head? ≠ some '"') :
    cut '"' (Quoted.encode name ++ '"' :: rest) =
      ⟨.token (.quoted (String.ofList name)), '"' :: (Quoted.encode name ++ ['"']), rest⟩ := by
  have hname : unquote ('"' :: (Quoted.encode name ++ ['"'])) = String.ofList name :=
    unquote_quote name
  rw [cut, if_neg (by decide), if_pos rfl, quotedPart_encode name h]
  simp only [hname]

/-- What a quotation stands for is written as the quotation. -/
theorem quote_unquote {cs slice rest : List Char} (h : quotedPart cs = some (slice, rest)) :
    quote (unquote ('"' :: slice)) = String.ofList ('"' :: slice) := by
  obtain ⟨⟨name, rfl⟩, -⟩ := exists_name_of_quotedPart h
  rw [← List.cons_append, unquote_quote, quote, String.toList_ofList]

end SqlVet
