import SqlVet.Diagnostic.Report
import SqlVet.Name.Basic
import SqlVet.Proofs.Name.Lexeme

/-!
# The grammar of names

A name is read token by token.  Which texts are names, and what is reported of the others:

* `dotted_iff`: parts with dots between them are parts and dots in turn, with a part at the end;
* `foldlM_step_of_turns`, `foldlM_step_of_misfit`: reading goes on as long as they take turns, and
  ends at the first token that does not fit;
* `named_or_unnamed`: so the names are the texts without stray pieces that have no tokens or follow
  the grammar, and every other text has a first fault;
* `Unnamed.syntaxErrorIn`: a fault is reported where a character of the text begins, or at its end;
* `FunctionName.ofText_cases`: the names with one to three parts are function names;
* `nameParts_grammar`: all of this, of what is read and what is reported.
-/

namespace SqlVet

/-! ## The grammar

Which tokens make up a dotted name, said twice: as a grammar, and by what fits in each place.  Parts
take the even places and dots the odd ones.
-/

namespace Token

/-- The part that a token stands for.  A quoted part that is empty stands for none. -/
inductive IsPart : Token → String → Prop
  | word (name : String) : IsPart (.word name) name
  | quoted {name : String} (h : name ≠ "") : IsPart (.quoted name) name

/-- Whether a token may stand at a place of a name, where the first place is zero. -/
def Fits (t : Token) (place : Nat) : Prop :=
  if place % 2 = 0 then ∃ p, t.IsPart p else t = .dot

def name? : Token → Option String
  | .word name => some name
  | .quoted name => some name
  | .dot => none

@[simp] theorem name?_dot : Token.dot.name? = none := rfl

theorem IsPart.name?_eq {t : Token} {p : String} (h : t.IsPart p) : t.name? = some p := by
  cases h <;> rfl

theorem fits_dot_iff {place : Nat} : Token.dot.Fits place ↔ place % 2 = 1 := by
  unfold Fits
  split
  · next heven =>
    refine ⟨?_, by omega⟩
    rintro ⟨p, hp⟩
    cases hp
  · next hodd =>
    refine ⟨fun _ => by omega, fun _ => rfl⟩

theorem fits_add_two {t : Token} {place : Nat} : t.Fits (place + 2) ↔ t.Fits place := by
  rw [Fits, Fits, Nat.add_mod_right]

end Token

/-- A part, or more than one with a dot between any two, and the names they stand for. -/
inductive Dotted : List Token → List String → Prop
  | single {t : Token} {p : String} (h : t.IsPart p) : Dotted [t] [p]
  | cons {t : Token} {p : String} {ts : List Token} {ps : List String} (h : t.IsPart p)
      (hts : Dotted ts ps) : Dotted (t :: .dot :: ts) (p :: ps)

/-- Tokens from a place of a name on, each of which fits its place. -/
def TakeTurns (place : Nat) (ts : List Token) : Prop :=
  ∀ x ∈ ts.zipIdx place, x.1.Fits x.2

@[simp] theorem takeTurns_nil (place : Nat) : TakeTurns place [] := nofun

@[simp] theorem takeTurns_cons {place : Nat} {t : Token} {ts : List Token} :
    TakeTurns place (t :: ts) ↔ t.Fits place ∧ TakeTurns (place + 1) ts := by
  simp [TakeTurns, List.zipIdx_cons]

theorem takeTurns_append {place : Nat} {ts us : List Token} :
    TakeTurns place (ts ++ us) ↔ TakeTurns place ts ∧ TakeTurns (place + ts.length) us := by
  induction ts generalizing place with
  | nil => simp
  | cons t ts ih =>
    rw [List.cons_append, takeTurns_cons, takeTurns_cons, ih, and_assoc, List.length_cons,
      Nat.add_comm ts.length, ← Nat.add_assoc]

theorem takeTurns_add_two {place : Nat} {ts : List Token} :
    TakeTurns (place + 2) ts ↔ TakeTurns place ts := by
  induction ts generalizing place with
  | nil => simp
  | cons t ts ih =>
    rw [takeTurns_cons, takeTurns_cons, Token.fits_add_two, Nat.add_right_comm place 2 1, ih]

theorem TakeTurns.fits_last {ts : List (Spanned Token)} {t : Spanned Token}
    (h : TakeTurns 0 ((ts ++ [t]).map Spanned.item)) : t.item.Fits ts.length := by
  rw [List.map_append, takeTurns_append, List.length_map, Nat.zero_add] at h
  exact (takeTurns_cons.mp h.2).1

/-- The tokens of a dotted name take turns, there is an odd number of them, and the parts are their
names. -/
theorem Dotted.takeTurns {ts : List Token} {ps : List String} (h : Dotted ts ps) :
    TakeTurns 0 ts ∧ ts.length % 2 = 1 ∧ ts.filterMap Token.name? = ps := by
  induction h with
  | single h =>
    refine ⟨?_, rfl, ?_⟩
    · exact takeTurns_cons.mpr ⟨⟨_, h⟩, takeTurns_nil 1⟩
    · rw [List.filterMap_cons_some h.name?_eq, List.filterMap_nil]
  | cons h hts ih =>
    obtain ⟨hturns, hlength, hnames⟩ := ih
    refine ⟨?_, ?_, ?_⟩
    · exact takeTurns_cons.mpr ⟨⟨_, h⟩, takeTurns_cons.mpr ⟨rfl, takeTurns_add_two.mpr hturns⟩⟩
    · simp only [List.length_cons]
      omega
    · rw [List.filterMap_cons_some h.name?_eq, List.filterMap_cons_none Token.name?_dot, hnames]

/-- Tokens that take turns begin with a part, so there is a name among them. -/
theorem TakeTurns.names_ne_nil {ts : List Token} (h : TakeTurns 0 ts) (hne : ts ≠ []) :
    ts.filterMap Token.name? ≠ [] := by
  cases ts with
  | nil => exact absurd rfl hne
  | cons t ts =>
    obtain ⟨p, hp⟩ : ∃ p, t.IsPart p := (takeTurns_cons.mp h).1
    rw [List.filterMap_cons_some hp.name?_eq]
    exact List.cons_ne_nil _ _

/-- An odd number of tokens that take turns is a dotted name.  The induction takes two of them at a
time, a part and the dot behind it. -/
theorem TakeTurns.dotted {ts : List Token} (h : TakeTurns 0 ts) (hlength : ts.length % 2 = 1) :
    Dotted ts (ts.filterMap Token.name?) := by
  match ts with
  | [] => cases hlength
  | [t] =>
    obtain ⟨p, hp⟩ : ∃ p, t.IsPart p := (takeTurns_cons.mp h).1
    rw [List.filterMap_cons_some hp.name?_eq]
    exact .single hp
  | t :: u :: ts =>
    obtain ⟨⟨p, hp⟩, hturns⟩ := takeTurns_cons.mp h
    obtain ⟨hu, hts⟩ := takeTurns_cons.mp hturns
    obtain rfl : u = .dot := hu
    rw [List.filterMap_cons_some hp.name?_eq, List.filterMap_cons_none Token.name?_dot]
    refine .cons hp ((takeTurns_add_two.mp hts).dotted ?_)
    simp only [List.length_cons] at hlength
    omega

/-- So the grammar and the turns describe the same tokens. -/
theorem dotted_iff {ts : List Token} {ps : List String} :
    Dotted ts ps ↔
      TakeTurns 0 ts ∧ ts.length % 2 = 1 ∧ ts.filterMap Token.name? = ps := by
  constructor
  · exact Dotted.takeTurns
  · rintro ⟨hturns, hlength, rfl⟩
    exact hturns.dotted hlength

/-! ## Reading token by token

The reader goes from token to token and knows whether a part is due.  It is due in the even places,
and that is the invariant of the whole fold.
-/

/-- The report of a token that does not fit its place. -/
def misfit (t : Spanned Token) (place : Nat) : Diagnostic where
  code := "42601"
  message :=
    if place % 2 = 0 ∧ t.item = .quoted "" then "zero-length delimited identifier"
    else "syntax error at or near \"" ++ t.item.text ++ "\""
  hint := none
  location := some t.span.start

theorem misfit_of_empty {t : Spanned Token} {place : Nat} (hplace : place % 2 = 0)
    (ht : t.item = .quoted "") :
    misfit t place = Cause.emptyPart.diagnostic (some t.span.start) := by
  rw [misfit, if_pos ⟨hplace, ht⟩]
  rfl

theorem misfit_of_not_empty {t : Spanned Token} {place : Nat}
    (h : ¬ (place % 2 = 0 ∧ t.item = .quoted "")) :
    misfit t place = (Cause.unexpected t.item.text).diagnostic (some t.span.start) := by
  rw [misfit, if_neg h]
  rfl

namespace Reading

variable {r : Reading} {t : Spanned Token} {ts : List (Spanned Token)} {place : Nat}

theorem partDue_start : start.partDue = decide (0 % 2 = 0) := rfl

/-- A token that fits is taken, its name is added to the parts if it has one, and the invariant goes
on to the next place. -/
theorem step_of_fits (hdue : r.partDue = decide (place % 2 = 0)) (h : t.item.Fits place) :
    ∃ next, r.step t = .ok next ∧ next.partDue = decide ((place + 1) % 2 = 0)
      ∧ next.parts.toList = r.parts.toList ++ t.item.name?.toList := by
  obtain ⟨item, span⟩ := t
  unfold Token.Fits at h
  split at h
  · next heven =>
    have hodd : ¬ (place + 1) % 2 = 0 := by omega
    rw [decide_eq_true heven] at hdue
    rw [decide_eq_false hodd]
    obtain ⟨p, hp⟩ := h
    refine ⟨⟨r.parts.push p, false⟩, ?_, rfl, ?_⟩
    · cases hp with
      | word => simp [step, hdue]
      | quoted hne => simp [step, hdue, hne]
    · simp [hp.name?_eq]
  · next hodd =>
    have heven : (place + 1) % 2 = 0 := by omega
    rw [decide_eq_false hodd] at hdue
    rw [decide_eq_true heven]
    obtain rfl : item = .dot := h
    refine ⟨⟨r.parts, true⟩, ?_, rfl, ?_⟩
    · simp [step, hdue]
    · simp

/-- A token that does not fit is reported. -/
theorem step_of_misfit (hdue : r.partDue = decide (place % 2 = 0)) (h : ¬ t.item.Fits place) :
    r.step t = .error (misfit t place) := by
  obtain ⟨item, span⟩ := t
  unfold Token.Fits at h
  split at h
  · next heven =>
    rw [decide_eq_true heven] at hdue
    cases item with
    | word name => exact absurd ⟨name, .word name⟩ h
    | quoted name =>
      by_cases hempty : name = ""
      -- the one token that is reported by itself, and only where a part is due
      · subst hempty
        rw [misfit_of_empty heven rfl]
        simp [step, hdue]
      · exact absurd ⟨name, .quoted hempty⟩ h
    | dot =>
      rw [misfit_of_not_empty (by simp)]
      simp [step, hdue]
  · next hodd =>
    rw [decide_eq_false hodd] at hdue
    rw [misfit_of_not_empty fun hempty => hodd hempty.1]
    cases item with
    | word name => simp [step, hdue]
    | quoted name => simp [step, hdue]
    | dot => exact absurd rfl h

/-- Tokens that take turns are all taken, with their names for parts. -/
theorem foldlM_step_of_turns (hdue : r.partDue = decide (place % 2 = 0))
    (h : TakeTurns place (ts.map Spanned.item)) :
    ∃ last, ts.foldlM step r = .ok last ∧ last.partDue = decide ((place + ts.length) % 2 = 0)
      ∧ last.parts.toList = r.parts.toList ++ (ts.map Spanned.item).filterMap Token.name? := by
  induction ts generalizing r place with
  | nil => exact ⟨r, rfl, hdue, (List.append_nil _).symm⟩
  | cons t ts ih =>
    obtain ⟨ht, hts⟩ := takeTurns_cons.mp h
    obtain ⟨next, hnext, hnextDue, hnextParts⟩ := step_of_fits hdue ht
    obtain ⟨last, hlast, hlastDue, hlastParts⟩ := ih hnextDue hts
    refine ⟨last, ?_, ?_, ?_⟩
    · rw [List.foldlM_cons, hnext]
      exact hlast
    · rw [hlastDue, List.length_cons, Nat.add_right_comm, Nat.add_assoc]
    · rw [hlastParts, hnextParts, List.append_assoc, List.map_cons]
      cases hname : t.item.name? with
      | none => rw [List.filterMap_cons_none hname]; rfl
      | some name => rw [List.filterMap_cons_some hname]; rfl

/-- Behind tokens that take turns, the first that does not fit is reported, whatever follows it. -/
theorem foldlM_step_of_misfit {before after : List (Spanned Token)}
    (hdue : r.partDue = decide (place % 2 = 0))
    (hbefore : TakeTurns place (before.map Spanned.item))
    (ht : ¬ t.item.Fits (place + before.length)) :
    (before ++ t :: after).foldlM step r = .error (misfit t (place + before.length)) := by
  obtain ⟨last, hlast, hlastDue, -⟩ := foldlM_step_of_turns hdue hbefore
  rw [List.foldlM_append, hlast]
  show (t :: after).foldlM step last = _
  rw [List.foldlM_cons, step_of_misfit hlastDue ht]
  rfl

end Reading

/-- Either all tokens fit or there is a first that does not. -/
theorem takeTurns_or_misfit (place : Nat) (ts : List (Spanned Token)) :
    TakeTurns place (ts.map Spanned.item)
      ∨ ∃ before t after, ts = before ++ t :: after
        ∧ TakeTurns place (before.map Spanned.item) ∧ ¬ t.item.Fits (place + before.length) := by
  induction ts generalizing place with
  | nil => exact .inl (takeTurns_nil place)
  | cons t ts ih =>
    by_cases ht : t.item.Fits place
    · rcases ih (place + 1) with hts | ⟨before, u, after, rfl, hbefore, hu⟩
      · exact .inl (takeTurns_cons.mpr ⟨ht, hts⟩)
      · refine .inr ⟨t :: before, u, after, rfl, takeTurns_cons.mpr ⟨ht, hbefore⟩, ?_⟩
        rw [List.length_cons, Nat.add_comm before.length, ← Nat.add_assoc]
        exact hu
    · exact .inr ⟨[], t, ts, rfl, takeTurns_nil place, ht⟩

/-! ## Whole texts

A text is a name or it is not, and in the second case there is one reason that comes first: a stray
piece, a token that does not fit, or an end where a part is due.
-/

/-- The report of a name that ends with a dot. -/
def unfinished (text : String) : Diagnostic where
  code := "42601"
  message := "syntax error at end of input"
  hint := none
  location := some text.utf8ByteSize

/-- Texts that are names with certain parts: there is nothing stray in them, and their tokens, if
there are any, follow the grammar. -/
def Named (text : String) (parts : List String) : Prop :=
  (lex text).diagnostics = [] ∧ ((lex text).tokens = [] ∧ parts = []
    ∨ Dotted ((lex text).tokens.map Spanned.item) parts)

/-- What is reported of a text that is not a name: the first stray piece, wherever it stands, or
else the first token that does not fit its place, or else that the text ends with a dot. -/
inductive Unnamed (text : String) : Diagnostic → Prop
  | stray {d : Diagnostic} (hd : d ∈ (lex text).diagnostics)
      (hfirst : ∀ e ∈ (lex text).diagnostics, e = d ∨ d.Before e) : Unnamed text d
  | misfit {before after : List (Spanned Token)} {t : Spanned Token}
      (hlex : (lex text).diagnostics = []) (htokens : (lex text).tokens = before ++ t :: after)
      (hbefore : TakeTurns 0 (before.map Spanned.item)) (ht : ¬ t.item.Fits before.length) :
      Unnamed text (misfit t before.length)
  | unfinished {before : List (Spanned Token)} {t : Spanned Token}
      (hlex : (lex text).diagnostics = []) (htokens : (lex text).tokens = before ++ [t])
      (hturns : TakeTurns 0 ((lex text).tokens.map Spanned.item)) (hdot : t.item = .dot) :
      Unnamed text (unfinished text)

section
variable {text : String} {parts : List String} {d : Diagnostic}

theorem nameParts_of_stray {ds : List Diagnostic} (h : (lex text).diagnostics = d :: ds) :
    nameParts text = .error d := by
  unfold nameParts
  split
  · next d' ds' hlex =>
    rw [hlex] at h
    cases h
    rfl
  · next hlex =>
    rw [hlex] at h
    cases h

theorem nameParts_of_tokens (h : (lex text).diagnostics = []) :
    nameParts text = (do
      let r ← (lex text).tokens.foldlM Reading.step Reading.start
      r.finish text.utf8ByteSize) := by
  unfold nameParts
  split
  · next d' ds' hlex =>
    rw [hlex] at h
    cases h
  · next hlex => rw [hlex]

/-- Every text is a name, or one reason is the first for which it is not. -/
theorem named_or_unnamed (text : String) :
    (∃ parts, Named text parts) ∨ ∃ d, Unnamed text d := by
  cases hlex : (lex text).diagnostics with
  | cons d ds =>
    have hsorted := pairwise_diagnostics_lex text
    rw [hlex] at hsorted
    refine .inr ⟨d, .stray (by rw [hlex]; exact List.mem_cons_self) ?_⟩
    intro e he
    rw [hlex] at he
    rcases List.mem_cons.mp he with rfl | he
    · exact .inl rfl
    · exact .inr (List.rel_of_pairwise_cons hsorted he)
  | nil =>
    rcases takeTurns_or_misfit 0 (lex text).tokens with
      hturns | ⟨before, t, after, htokens, hbefore, ht⟩
    · rcases List.eq_nil_or_concat (lex text).tokens with hnil | ⟨before, t, htokens⟩
      · exact .inl ⟨[], hlex, .inl ⟨hnil, rfl⟩⟩
      · rw [List.concat_eq_append] at htokens
        by_cases hlength : ((lex text).tokens.map Spanned.item).length % 2 = 1
        · exact .inl ⟨_, hlex, .inr (dotted_iff.mpr ⟨hturns, hlength, rfl⟩)⟩
        -- the last token stands at an odd place, where only a dot fits
        · refine .inr ⟨_, .unfinished hlex htokens hturns ?_⟩
          rw [htokens] at hturns hlength
          have ht := hturns.fits_last
          simp only [List.length_map, List.length_append, List.length_singleton] at hlength
          rwa [Token.Fits, if_neg (by omega)] at ht
    · rw [Nat.zero_add] at ht
      exact .inr ⟨_, .misfit hlex htokens hbefore ht⟩

theorem nameParts_of_named (h : Named text parts) : nameParts text = .ok parts := by
  obtain ⟨hlex, ⟨htokens, rfl⟩ | hdotted⟩ := h
  · rw [nameParts_of_tokens hlex, htokens]
    rfl
  · obtain ⟨hturns, hlength, hnames⟩ := dotted_iff.mp hdotted
    obtain ⟨last, hlast, hdue, hparts⟩ := Reading.foldlM_step_of_turns Reading.partDue_start hturns
    have hdue : last.partDue = false := by
      rw [hdue, Nat.zero_add]
      rw [List.length_map] at hlength
      exact decide_eq_false (by omega)
    rw [nameParts_of_tokens hlex, hlast]
    show last.finish text.utf8ByteSize = .ok parts
    rw [Reading.finish, hdue, Bool.false_and, if_neg Bool.false_ne_true, hparts, hnames]
    rfl

theorem nameParts_of_unnamed (h : Unnamed text d) : nameParts text = .error d := by
  cases h with
  | stray hd hfirst =>
    cases hlex : (lex text).diagnostics with
    | nil =>
      rw [hlex] at hd
      cases hd
    | cons d' ds =>
      have hsorted := pairwise_diagnostics_lex text
      rw [nameParts_of_stray hlex]
      rw [hlex] at hd hfirst hsorted
      -- the reports are sorted, so the first in place is the first in the list
      rcases hfirst d' List.mem_cons_self with rfl | hbefore
      · rfl
      · rcases List.mem_cons.mp hd with rfl | hd
        · rfl
        · exact absurd hbefore (List.rel_of_pairwise_cons hsorted hd).asymm
  | @misfit before after t hlex htokens hbefore ht =>
    rw [← Nat.zero_add before.length] at ht ⊢
    rw [nameParts_of_tokens hlex, htokens,
      Reading.foldlM_step_of_misfit Reading.partDue_start hbefore ht]
    rfl
  | @unfinished before t hlex htokens hturns hdot =>
    obtain ⟨last, hlast, hdue, hparts⟩ := Reading.foldlM_step_of_turns Reading.partDue_start hturns
    rw [nameParts_of_tokens hlex, hlast]
    show last.finish text.utf8ByteSize = .error _
    have hdue : last.partDue = true := by
      rw [htokens] at hturns
      have ht := hturns.fits_last
      rw [hdot, Token.fits_dot_iff] at ht
      rw [hdue, htokens, List.length_append, List.length_singleton]
      exact decide_eq_true (by omega)
    -- a part is due at the beginning too, but there has been one before this dot
    have hne : last.parts.isEmpty = false := by
      have hnames := hturns.names_ne_nil (by simp [htokens])
      rw [← Bool.not_eq_true, Array.isEmpty_iff]
      rintro hempty
      rw [hempty] at hparts
      exact hnames hparts.symm
    rw [Reading.finish, hdue, hne]
    rfl

/-- Exactly the names are read, each as its own parts. -/
theorem nameParts_eq_ok_iff : nameParts text = .ok parts ↔ Named text parts := by
  refine ⟨?_, nameParts_of_named⟩
  intro h
  rcases named_or_unnamed text with ⟨parts', hparts⟩ | ⟨d, hd⟩
  · rw [nameParts_of_named hparts] at h
    cases h
    exact hparts
  · rw [nameParts_of_unnamed hd] at h
    cases h

/-- And exactly the first reason is reported of any other text. -/
theorem nameParts_eq_error_iff : nameParts text = .error d ↔ Unnamed text d := by
  refine ⟨?_, nameParts_of_unnamed⟩
  intro h
  rcases named_or_unnamed text with ⟨parts, hparts⟩ | ⟨d', hd⟩
  · rw [nameParts_of_named hparts] at h
    cases h
  · rw [nameParts_of_unnamed hd] at h
    cases h
    exact hd

end

/-! ## What the reports point at

A report about a text points into it, between two of its characters or at its end.  So nothing has
to be clamped when it is shown against that text.
-/

/-- A syntax error at a place in a text, so that showing it against the text moves nothing. -/
structure Diagnostic.SyntaxErrorIn (d : Diagnostic) (text : String) : Prop where
  code : d.code = "42601"
  hint : d.hint = none
  /-- The place is where a character begins, or where the text ends. -/
  place : ∃ i, d.location = some i ∧ String.Pos.Raw.IsValid text ⟨i⟩ ∧ i ≤ text.utf8ByteSize
  shown : ∀ name, d.reportAgainst ⟨text, name⟩ = ⟨d, ⟨text, name⟩⟩

theorem SourceText.clamp_of_le {s : SourceText} {i : Nat} (h : i ≤ s.content.utf8ByteSize) :
    s.clamp i = i :=
  Nat.min_eq_left h

section
variable {text : String} {d : Diagnostic} {i : Nat}

theorem Diagnostic.reportAgainst_of_le {source : SourceText} (hplace : d.location = some i)
    (h : i ≤ source.content.utf8ByteSize) : d.reportAgainst source = ⟨d, source⟩ := by
  obtain ⟨code, message, hint, location⟩ := d
  obtain rfl : location = some i := hplace
  rw [reportAgainst, Option.map_some, SourceText.clamp_of_le h]

theorem Diagnostic.reportAgainst_of_none {source : SourceText} (hplace : d.location = none) :
    d.reportAgainst source = ⟨d, source⟩ := by
  obtain ⟨code, message, hint, location⟩ := d
  obtain rfl : location = none := hplace
  rfl

/-- A report with the right code and no hint is a syntax error in a text if it points at a boundary
between its characters. -/
theorem syntaxErrorIn_of_isValid (hcode : d.code = "42601") (hhint : d.hint = none)
    (hplace : d.location = some i) (hvalid : String.Pos.Raw.IsValid text ⟨i⟩) :
    d.SyntaxErrorIn text where
  code := hcode
  hint := hhint
  place := ⟨i, hplace, hvalid, hvalid.le_rawEndPos⟩
  shown _ := Diagnostic.reportAgainst_of_le hplace hvalid.le_rawEndPos

/-- Whatever is wrong with a text, the report of it is a syntax error in that text. -/
theorem Unnamed.syntaxErrorIn (h : Unnamed text d) : d.SyntaxErrorIn text := by
  cases h with
  | stray hd _ =>
    obtain ⟨slice, span, hl, rfl⟩ := mem_diagnostics_lex hd
    obtain ⟨hstart, -⟩ := boundaries_of_mem_lexemes hl
    exact syntaxErrorIn_of_isValid rfl rfl rfl hstart
  | @misfit before after t _ htokens _ _ =>
    have ht : t ∈ (lex text).tokens := by
      rw [htokens]
      exact List.mem_append_right before List.mem_cons_self
    obtain ⟨hstart, -⟩ := boundaries_of_mem_lexemes (mem_tokens_lex ht)
    exact syntaxErrorIn_of_isValid rfl rfl rfl hstart
  | unfinished => exact syntaxErrorIn_of_isValid rfl rfl rfl String.Pos.Raw.isValid_rawEndPos

end

/-! ## Function names

A function name is its parts: one to three of them, so that a database comes with a schema.
-/

namespace FunctionName

/-- A name that says which database it means says which schema of it. -/
def WellScoped (n : FunctionName) : Prop := n.schema = none → n.database = none

/-- The report of a name that has no parts or more than three. -/
def improper (parts : List String) : Diagnostic where
  code := "42601"
  message :=
    if parts = [] then "improper qualified name (empty)"
    else "improper qualified name (too many dotted names): " ++ ".".intercalate parts
  hint := none
  location := none

variable {parts : List String} {n : FunctionName} {d : Diagnostic} {text : String}

theorem length_parts (n : FunctionName) : 1 ≤ n.parts.length ∧ n.parts.length ≤ 3 := by
  obtain ⟨database, schema, base⟩ := n
  cases database <;> cases schema <;> simp [parts]

theorem ofParts_parts (h : n.WellScoped) : ofParts n.parts = .ok n := by
  match n, h with
  | ⟨none, none, _⟩, _ => rfl
  | ⟨none, some _, _⟩, _ => rfl
  | ⟨some _, some _, _⟩, _ => rfl
  | ⟨some _, none, _⟩, h => cases h rfl

theorem exists_parts_eq (h : 1 ≤ parts.length ∧ parts.length ≤ 3) :
    ∃ n : FunctionName, n.WellScoped ∧ n.parts = parts := by
  match parts, h with
  | [base], _ => exact ⟨⟨none, none, base⟩, fun _ => rfl, rfl⟩
  | [schema, base], _ => exact ⟨⟨none, some schema, base⟩, fun _ => rfl, rfl⟩
  | [database, schema, base], _ => exact ⟨⟨some database, some schema, base⟩, nofun, rfl⟩

/-- No parts and more than three are refused, and all of them are repeated in the report. -/
theorem ofParts_of_improper (h : ¬ (1 ≤ parts.length ∧ parts.length ≤ 3)) :
    ofParts parts = .error (improper parts) := by
  match parts, h with
  | [], _ => rfl
  | [_], h | [_, _], h | [_, _, _], h => exact absurd (by simp) h
  | _ :: _ :: _ :: _ :: _, _ => rfl

/-- What can become of parts: they are those of a name, or there are too few or too many. -/
theorem ofParts_cases (parts : List String) :
    (∃ n, n.WellScoped ∧ n.parts = parts ∧ ofParts parts = .ok n)
      ∨ ¬ (1 ≤ parts.length ∧ parts.length ≤ 3) ∧ ofParts parts = .error (improper parts) := by
  by_cases hlength : 1 ≤ parts.length ∧ parts.length ≤ 3
  · obtain ⟨n, hn, rfl⟩ := exists_parts_eq hlength
    exact .inl ⟨n, hn, rfl, ofParts_parts hn⟩
  · exact .inr ⟨hlength, ofParts_of_improper hlength⟩

/-- Nothing but the number of the parts is asked of them. -/
theorem ofParts_eq_error_iff :
    ofParts parts = .error d ↔
      ¬ (1 ≤ parts.length ∧ parts.length ≤ 3) ∧ d = improper parts := by
  constructor
  · intro h
    rcases ofParts_cases parts with ⟨n, -, -, hn⟩ | ⟨hlength, herror⟩
    · cases hn.symm.trans h
    · cases herror.symm.trans h
      exact ⟨hlength, rfl⟩
  · rintro ⟨hlength, rfl⟩
    exact ofParts_of_improper hlength

/-- Parts are taken as the name whose parts they are. -/
theorem ofParts_eq_ok_iff : ofParts parts = .ok n ↔ n.WellScoped ∧ n.parts = parts := by
  constructor
  · intro h
    rcases ofParts_cases parts with ⟨m, hm, hparts, hok⟩ | ⟨-, herror⟩
    · cases hok.symm.trans h
      exact ⟨hm, hparts⟩
    · cases herror.symm.trans h
  · rintro ⟨hn, rfl⟩
    exact ofParts_parts hn

theorem ofText_of_error (h : nameParts text = .error d) : ofText text = .error d := by
  rw [ofText, h]
  rfl

theorem ofText_of_ok (h : nameParts text = .ok parts) : ofText text = ofParts parts := by
  rw [ofText, h]
  rfl

theorem ofText_of_parts (h : nameParts text = .ok n.parts) (hn : n.WellScoped) :
    ofText text = .ok n := by
  rw [ofText_of_ok h, ofParts_parts hn]

/-- What can become of a text: it has one to three parts, and is the name with these parts, or it
has another number of parts, or it cannot be read. -/
theorem ofText_cases (text : String) :
    (∃ n, n.WellScoped ∧ nameParts text = .ok n.parts ∧ ofText text = .ok n)
      ∨ (∃ parts, ¬ (1 ≤ parts.length ∧ parts.length ≤ 3) ∧ nameParts text = .ok parts
          ∧ ofText text = .error (improper parts))
      ∨ ∃ d, nameParts text = .error d ∧ ofText text = .error d := by
  cases h : nameParts text with
  | error d => exact .inr (.inr ⟨d, rfl, ofText_of_error h⟩)
  | ok parts =>
    have hread := ofText_of_ok h
    rcases ofParts_cases parts with ⟨n, hn, rfl, hok⟩ | ⟨hlength, herror⟩
    · exact .inl ⟨n, hn, rfl, hread.trans hok⟩
    · exact .inr (.inl ⟨parts, hlength, rfl, hread.trans herror⟩)

/-- A text stands for a name if it is read as the parts of that name. -/
theorem ofText_eq_ok_iff :
    ofText text = .ok n ↔ nameParts text = .ok n.parts ∧ n.WellScoped := by
  refine ⟨?_, fun h => ofText_of_parts h.1 h.2⟩
  intro h
  rcases ofText_cases text with ⟨n', hn, hparts, hok⟩ | ⟨_, -, -, herr⟩ | ⟨_, -, herr⟩
  · cases hok.symm.trans h
    exact ⟨hparts, hn⟩
  · cases herr.symm.trans h
  · cases herr.symm.trans h

/-- A text stands for no name if it is not read as parts, or as too few or too many of them. -/
theorem ofText_eq_error_iff :
    ofText text = .error d ↔ nameParts text = .error d
      ∨ ∃ parts, nameParts text = .ok parts ∧ ¬ (1 ≤ parts.length ∧ parts.length ≤ 3)
        ∧ d = improper parts := by
  constructor
  · intro h
    rcases ofText_cases text with ⟨_, -, -, hok⟩ | ⟨parts, hlength, hparts, herr⟩ | ⟨_, hd, herr⟩
    · cases hok.symm.trans h
    · cases herr.symm.trans h
      exact .inr ⟨parts, hparts, hlength, rfl⟩
    · cases herr.symm.trans h
      exact .inl hd
  · rintro (h | ⟨parts, hparts, hlength, rfl⟩)
    · exact ofText_of_error h
    · rw [ofText_of_ok hparts, ofParts_of_improper hlength]

/-- So the texts that stand for some name are those with one to three parts. -/
theorem exists_ofText_eq_ok_iff :
    (∃ n, ofText text = .ok n) ↔
      ∃ parts, nameParts text = .ok parts ∧ 1 ≤ parts.length ∧ parts.length ≤ 3 := by
  constructor
  · rintro ⟨n, hn⟩
    exact ⟨n.parts, (ofText_eq_ok_iff.mp hn).1, n.length_parts⟩
  · rintro ⟨parts, hparts, hlength⟩
    obtain ⟨n, hn, rfl⟩ := exists_parts_eq hlength
    exact ⟨n, ofText_of_parts hparts hn⟩

end FunctionName

/-- **The grammar of names.**  A text is read exactly if it is a name, and then into the parts that
the grammar gives; of any other text the first fault is reported, where it stands.  A text that is
read is a function name exactly if it has one to three parts. -/
theorem nameParts_grammar (text : String) :
    (∀ parts, nameParts text = .ok parts ↔ Named text parts)
      ∧ (∀ d, nameParts text = .error d ↔ Unnamed text d)
      ∧ (∀ d, nameParts text = .error d → d.SyntaxErrorIn text)
      ∧ ((∃ n, FunctionName.ofText text = .ok n) ↔
          ∃ parts, nameParts text = .ok parts ∧ 1 ≤ parts.length ∧ parts.length ≤ 3)
      ∧ (∀ n, FunctionName.ofText text = .ok n ↔
          nameParts text = .ok n.parts ∧ n.WellScoped)
      ∧ ∀ d, FunctionName.ofText text = .error d ↔ nameParts text = .error d
          ∨ ∃ parts, nameParts text = .ok parts ∧ ¬ (1 ≤ parts.length ∧ parts.length ≤ 3)
            ∧ d = FunctionName.improper parts := by
  refine ⟨?_, ?_, ?_, ?_, ?_, ?_⟩
  · exact fun parts => nameParts_eq_ok_iff
  · exact fun d => nameParts_eq_error_iff
  · exact fun d h => (nameParts_eq_error_iff.mp h).syntaxErrorIn
  · exact FunctionName.exists_ofText_eq_ok_iff
  · exact fun n => FunctionName.ofText_eq_ok_iff
  · exact fun d => FunctionName.ofText_eq_error_iff

/-- Where a dot is due, an empty part is reported like any other token. -/
theorem nameParts_grammar_empty_part :
    nameParts "É.b\"\"." = .error ⟨"42601", "syntax error at or near \"\"\"\"", none, some 4⟩
      ∧ Diagnostic.SyntaxErrorIn ⟨"42601", "syntax error at or near \"\"\"\"", none, some 4⟩
          "É.b\"\"." := by
  have h : nameParts "É.b\"\"." =
      .error ⟨"42601", "syntax error at or near \"\"\"\"", none, some 4⟩ := by
    decide +kernel
  obtain ⟨-, -, hplace, -⟩ := nameParts_grammar "É.b\"\"."
  exact ⟨h, hplace _ h⟩

end SqlVet
