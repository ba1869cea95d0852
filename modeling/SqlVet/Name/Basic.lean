import SqlVet.Diagnostic.Report

/-!
# Dotted names

A name such as `pg_catalog."Lower"` is made of words, quoted parts and dots.  Its text is read in
three stages:

* `lexemes` cuts it into tokens and stray pieces, and `lex` keeps the two apart;
* `nameParts` takes the parts out of the tokens, where dots and parts take turns;
* `FunctionName.ofText` says which function, schema and database they mean.
-/

namespace SqlVet

/-! ## Quoting -/

namespace Quoted

/-- Writes every quote twice, so that none of them closes the quotation. -/
def encode : List Char → List Char
  | [] => []
  | c :: cs => if c = '"' then '"' :: '"' :: encode cs else c :: encode cs

/-- Reads two quotes in a row as one, from the left on. -/
def decode : List Char → List Char
  | [] => []
  | '"' :: '"' :: cs => '"' :: decode cs
  | c :: cs => c :: decode cs

end Quoted

/-- A text between quotes, with the quotes inside it doubled. -/
def quote (text : String) : String :=
  String.ofList ('"' :: Quoted.encode text.toList ++ ['"'])

/-- The text that a quotation stands for, where `slice` has the quotes around it as well. -/
def unquote (slice : List Char) : String :=
  String.ofList (Quoted.decode slice.tail.dropLast)

/-! ## Tokens

An unquoted word means its lower-case form, a quoted part exactly what stands between the quotes.
-/

/-- A token with the name it stands for, not as it was written. -/
inductive Token where
  | word (name : String)
  | quoted (name : String)
  | dot
deriving DecidableEq

namespace Token

/-- The text that stands for a token: a word in lower case, a quoted part in its quotes. -/
def text : Token → String
  | .word name => name
  | .quoted name => quote name
  | .dot => "."

def value : Token → String
  | .word name => name
  | .quoted name => name
  | .dot => "."

end Token

/-! ## Character classes

A bare word begins with a letter or an underscore, and goes on with digits and dollar signs as well.
Which letters there are beyond ASCII is not asked.
-/

/-- What may stand between lexemes.  Vertical tabs and blanks beyond ASCII are not among them. -/
def isBlank (c : Char) : Bool :=
  c = ' ' || c = '\t' || c = '\r' || c = '\n' || c = '\x0c'

/-- Every character beyond ASCII counts as a letter, whatever it is. -/
def isWordStart (c : Char) : Bool :=
  c.isAlpha || c = '_' || 0x80 ≤ c.toNat

def isWordPart (c : Char) : Bool :=
  isWordStart c || c.isDigit || c = '$'

/-- The lower-case form of a word: only ASCII letters fold. -/
def fold (cs : List Char) : String := String.ofList (cs.map Char.toLower)

/-- The length of a text in bytes of the UTF-8 encoding. -/
def byteLength (cs : List Char) : Nat :=
  -- the zero is named, since other imports bring other ways to it
  @List.sum Nat _ Zero.ofOfNat0 (cs.map Char.utf8Size)

@[simp] theorem byteLength_nil : byteLength [] = 0 := rfl

@[simp] theorem byteLength_cons (c : Char) (cs : List Char) :
    byteLength (c :: cs) = c.utf8Size + byteLength cs := by
  simp [byteLength]

@[simp] theorem byteLength_append (cs ds : List Char) :
    byteLength (cs ++ ds) = byteLength cs + byteLength ds := by
  simp [byteLength]

theorem byteLength_pos {cs : List Char} (h : cs ≠ []) : 0 < byteLength cs := by
  cases cs with
  | nil => exact absurd rfl h
  | cons c cs =>
    have := c.utf8Size_pos
    rw [byteLength_cons]
    omega

/-! ## One lexeme

A lexeme is a token, or a stray piece of text that no token begins with, and is as long as it can
be.
-/

inductive Lexeme where
  | token (token : Token)
  | stray (slice : String)
deriving DecidableEq

/-- A lexeme with the characters it takes up and those that follow it. -/
structure Cut where
  lexeme : Lexeme
  slice : List Char
  rest : List Char

/-- A quotation behind its opening quote, up to and with the closing quote, and what follows it.
Two quotes in a row do not close it. -/
def quotedPart : List Char → Option (List Char × List Char)
  | [] => none
  | '"' :: '"' :: cs => (quotedPart cs).map fun (slice, rest) => ('"' :: '"' :: slice, rest)
  | '"' :: cs => some (['"'], cs)
  | c :: cs => (quotedPart cs).map fun (slice, rest) => (c :: slice, rest)

/-- Cuts the first lexeme off a text that begins with `c` and no blank.  A quotation that is never
closed is stray up to the end of the text; any other stray piece is a single character. -/
def cut (c : Char) (cs : List Char) : Cut :=
  if c = '.' then
    ⟨.token .dot, [c], cs⟩
  else if c = '"' then
    match quotedPart cs with
    | some (slice, rest) => ⟨.token (.quoted (unquote (c :: slice))), c :: slice, rest⟩
    | none => ⟨.stray (String.ofList (c :: cs)), c :: cs, []⟩
  else if isWordStart c then
    let slice := c :: cs.takeWhile isWordPart
    ⟨.token (.word (fold slice)), slice, cs.dropWhile isWordPart⟩
  else
    ⟨.stray (String.ofList [c]), [c], cs⟩

/-- A quoted part and what is behind it make up the text. -/
theorem quotedPart_append {cs slice rest : List Char}
    (h : quotedPart cs = some (slice, rest)) : slice ++ rest = cs := by
  fun_induction quotedPart cs generalizing slice rest with
  | case1 => simp at h
  | case2 cs ih =>
    obtain ⟨⟨s, r⟩, hc, he⟩ := Option.map_eq_some_iff.mp h
    cases he
    simp [ih hc]
  | case3 cs _ => cases h; rfl
  | case4 c cs _ _ ih =>
    obtain ⟨⟨s, r⟩, hc, he⟩ := Option.map_eq_some_iff.mp h
    cases he
    simp [ih hc]

/-- A cut loses nothing. -/
theorem slice_append_rest (c : Char) (cs : List Char) :
    (cut c cs).slice ++ (cut c cs).rest = c :: cs := by
  unfold cut
  split
  · rfl
  · split
    · split
      · next h => simp [quotedPart_append h]
      · simp
    · split
      · simp
      · rfl

/-- A lexeme takes at least the character that it begins with, so cutting goes on to the end. -/
theorem slice_ne_nil (c : Char) (cs : List Char) : (cut c cs).slice ≠ [] := by
  unfold cut
  repeat' split
  all_goals simp

/-- What is left behind a lexeme is no longer than what stood behind its first character. -/
theorem length_rest_le (c : Char) (cs : List Char) : (cut c cs).rest.length ≤ cs.length := by
  have h := congrArg List.length (slice_append_rest c cs)
  have := List.length_pos_iff.mpr (slice_ne_nil c cs)
  simp only [List.length_append, List.length_cons] at h
  omega

/-! ## All lexemes

Blanks lie between lexemes and belong to none.  Each lexeme keeps the byte offsets of its slice, so
slices and blanks together are the text.
-/

/-- The lexemes of a text that begins at a byte offset. -/
def lexemes (offset : Nat) : List Char → List (Spanned Lexeme)
  | [] => []
  | c :: cs =>
    if isBlank c then
      lexemes (offset + c.utf8Size) cs
    else
      let first := cut c cs
      let stop := offset + byteLength first.slice
      ⟨first.lexeme, offset, stop⟩ :: lexemes stop first.rest
termination_by cs => cs.length
decreasing_by
  · simp
  · have := length_rest_le c cs
    simp; omega

@[simp] theorem lexemes_nil (offset : Nat) : lexemes offset [] = [] := by
  rw [lexemes]

/-- A blank gives no lexeme, but the bytes that it takes count. -/
theorem lexemes_cons_of_blank {c : Char} (h : isBlank c = true) (offset : Nat) (cs : List Char) :
    lexemes offset (c :: cs) = lexemes (offset + c.utf8Size) cs := by
  rw [lexemes, if_pos h]

/-- Where no blank stands a lexeme is cut off, and what is behind it is cut further. -/
theorem lexemes_cons_of_not_blank {c : Char} (h : isBlank c = false) (offset : Nat)
    (cs : List Char) :
    lexemes offset (c :: cs) =
      ⟨(cut c cs).lexeme, offset, offset + byteLength (cut c cs).slice⟩
        :: lexemes (offset + byteLength (cut c cs).slice) (cut c cs).rest := by
  rw [lexemes, if_neg (Bool.not_eq_true _ ▸ h)]

/-- The tokens of a text, and the reports of its stray pieces, both in the order of the text. -/
structure Lexed where
  tokens : List (Spanned Token)
  diagnostics : List Diagnostic
deriving DecidableEq

namespace Lexeme

def token? : Spanned Lexeme → Option (Spanned Token)
  | ⟨.token t, span⟩ => some ⟨t, span⟩
  | ⟨.stray _, _⟩ => none

/-- A stray piece is reported where it begins. -/
def diagnostic? : Spanned Lexeme → Option Diagnostic
  | ⟨.token _, _⟩ => none
  | ⟨.stray slice, span⟩ => some ((Cause.unexpected slice).diagnostic (some span.start))

end Lexeme

/-- Lexes a whole text.  Stray pieces do not stop it. -/
def lex (text : String) : Lexed :=
  let ls := lexemes 0 text.toList
  ⟨ls.filterMap Lexeme.token?, ls.filterMap Lexeme.diagnostic?⟩

/-! ## Parts, token by token

A dotted name is empty, or one part and then dots with one part behind each.  Any other text is
reported at its first stray piece, if it has one, and else at the first token that does not fit, or
at its end.
-/

/-- How far a name has been read: its parts so far, and whether a part is due next or a dot. -/
structure Reading where
  parts : Array String
  partDue : Bool

namespace Reading

def start : Reading := ⟨#[], true⟩

/-- Reads one token.  A quoted part that is empty is reported as such only where a part is due. -/
def step (r : Reading) (t : Spanned Token) : Except Diagnostic Reading :=
  match t.item, r.partDue with
  | .word name, true => .ok ⟨r.parts.push name, false⟩
  | .quoted name, true =>
    if name = "" then .error (Cause.emptyPart.diagnostic (some t.span.start))
    else .ok ⟨r.parts.push name, false⟩
  | .dot, false => .ok ⟨r.parts, true⟩
  | token, _ => .error ((Cause.unexpected token.text).diagnostic (some t.span.start))

/-- The parts of a name that ends here, where `stop` is the length of the text.  A part can be due
at the end of a text without tokens, but not behind a dot. -/
def finish (r : Reading) (stop : Nat) : Except Diagnostic (List String) :=
  if r.partDue && !r.parts.isEmpty then .error (Cause.unfinishedName.diagnostic (some stop))
  else .ok r.parts.toList

end Reading

/-! ## The parts of a whole text -/

/-- The parts of a dotted name; a text without tokens has none. -/
def nameParts (text : String) : Except Diagnostic (List String) :=
  match lex text with
  | ⟨_, d :: _⟩ => .error d
  | ⟨tokens, []⟩ => do
    let r ← tokens.foldlM Reading.step Reading.start
    r.finish text.utf8ByteSize

/-! ## Function names

A name with one to three parts means a function, perhaps in a schema, perhaps in a database.
-/

structure FunctionName where
  database : Option String
  schema : Option String
  base : String
deriving DecidableEq

namespace FunctionName

/-- The parts of a name, the widest first. -/
def parts (n : FunctionName) : List String :=
  n.database.toList ++ n.schema.toList ++ [n.base]

/-- Parts are shown as they are, so the text need not read back as the same name. -/
def text (n : FunctionName) : String := ".".intercalate n.parts

/-- Takes the parts of a name as a statement has them, already read. -/
def ofParts : List String → Except Diagnostic FunctionName
  | [] => .error (Cause.noParts.diagnostic none)
  | [base] => .ok ⟨none, none, base⟩
  | [schema, base] => .ok ⟨none, some schema, base⟩
  | [database, schema, base] => .ok ⟨some database, some schema, base⟩
  | parts => .error ((Cause.tooManyParts parts).diagnostic none)

/-- Reads a name as it is written in a text. -/
def ofText (text : String) : Except Diagnostic FunctionName := do
  let parts ← nameParts text
  ofParts parts

end FunctionName

end SqlVet
