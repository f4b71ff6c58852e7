set_option autoImplicit false

/-! # Segments of a query template

A query template is SQL text in which words such as `&Model` or `:Field` stand for names. The
scanner cuts a template into *segments*. A segment is what leads up to a word, the word, and the
one boundary character that ends it:

    SELECT :Name, ':Name' FROM &Account -- the word :Name is followed by a comma
    ^^^^^^^                               the segment without symbol "SELECT "
           ^^^^^^                         the segment ":Name," with symbol ":Name"

What leads up to a word may hold quoted text and comments, in which no word starts. A comment runs
from `--` to the end of the line; the line end closes the segment as well, which then has no word.
Every segment starts outside quotes and comments.

The text of a segment is its source without comments, in which each run of control characters
outside quotes is one blank (`clean`). Its span counts bytes of the UTF-8 form of the template.
-/

namespace SchemaEvolution.Template

/-- A character that ends a word. Letters, digits and `& : . _ *` are word characters; every other
character up to `U+00FF` is a boundary, and above it the space separators are. -/
def isBoundary (c : Char) : Bool :=
  let n := c.toNat
  if n ≤ 0xFF then
    !(c == '&' || c == ':' || c == '.' || c == '_' || c == '*' || c.isAlphanum)
  else
    n == 0x1680 || (0x2000 ≤ n && n ≤ 0x200A) || n == 0x2028 || n == 0x2029 || n == 0x202F
      || n == 0x205F || n == 0x3000

/-- A character that opens a quoted span; the same character closes it. -/
def isQuote (c : Char) : Bool := c == '"' || c == '\''

/-- Where the scanner is: in plain text, inside a quoted span, or inside a comment. -/
inductive Mode where
  | plain
  | quoted (mark : Char)
  | comment
  deriving DecidableEq, Repr

/-- The source of a segment up to its word. -/
structure Lead where
  /-- The characters before the word. -/
  skipped : List Char
  /-- Whether they end with the line end that closes a comment; there is no word then. -/
  lineEnd : Bool
  /-- What follows them. -/
  rest : List Char

/-- Puts a character in front of what was skipped. -/
def Lead.cons (c : Char) (l : Lead) : Lead := { l with skipped := c :: l.skipped }

/-- Skips what stands before the next word. -/
def lead : Mode → List Char → Lead
  | _, [] => ⟨[], false, []⟩
  | .comment, c :: cs => if c = '\n' then ⟨[c], true, cs⟩ else (lead .comment cs).cons c
  | .quoted mark, c :: cs => (lead (if c = mark then .plain else .quoted mark) cs).cons c
  | .plain, c :: cs =>
    if isQuote c then (lead (.quoted c) cs).cons c
    else if c = '-' && cs.head? = some '-' then (lead .comment cs).cons c
    else if isBoundary c then (lead .plain cs).cons c
    else ⟨[], false, c :: cs⟩

/-- The source of one segment. -/
structure Piece where
  skipped : List Char
  /-- The word; empty when the segment has none. -/
  word : List Char
  /-- The boundary character that ends the word, unless the text ends there. -/
  closing : List Char
  rest : List Char

/-- Reads the word after what was skipped, and the boundary that ends it. -/
def Lead.piece (l : Lead) : Piece :=
  if l.lineEnd then ⟨l.skipped, [], [], l.rest⟩
  else
    ⟨l.skipped, l.rest.takeWhile (!isBoundary ·), (l.rest.dropWhile (!isBoundary ·)).take 1,
      (l.rest.dropWhile (!isBoundary ·)).drop 1⟩

/-- Cuts the first segment off a text. -/
def piece (cs : List Char) : Piece := (lead .plain cs).piece

/-- The characters of a segment. -/
def Piece.source (p : Piece) : List Char := p.skipped ++ p.word ++ p.closing

/-- The text of a segment: comments are dropped, quoted spans are kept as written, and a run of
control characters gives one blank. `spaced` says that such a blank was the last thing written
outside quotes. -/
def clean : Mode → Bool → List Char → List Char
  | _, _, [] => []
  | .comment, spaced, c :: cs =>
    if c = '\n' then clean .plain spaced cs else clean .comment spaced cs
  | .quoted mark, spaced, c :: cs =>
    c :: clean (if c = mark then .plain else .quoted mark) spaced cs
  | .plain, spaced, c :: cs =>
    if isQuote c then c :: clean (.quoted c) spaced cs
    else if c = '-' && cs.head? = some '-' then clean .comment spaced cs
    else if c < ' ' then
      if spaced then clean .plain true cs else ' ' :: clean .plain true cs
    else c :: clean .plain false cs

/-- The symbol a word carries. What stands before the first `:` or `&` is an alias and is dropped,
as is a cast: everything from the first `::` on. A mark alone is no symbol. -/
def symbolOf (word : List Char) : Option (List Char) :=
  let marked := word.dropWhile fun c => c != ':' && c != '&'
  let symbol := beforeCast marked
  if symbol.length > 1 then some symbol else none
where
  /-- What stands before the first `::`. -/
  beforeCast : List Char → List Char
    | [] => []
    | c :: cs => if c = ':' && cs.head? = some ':' then [] else c :: beforeCast cs

/-- A segment of a template. -/
structure Segment where
  /-- The cleaned text. -/
  text : String
  /-- The symbol of its word, such as `&Model`, `:Field` or `:Model.Field`. -/
  symbol : Option String
  /-- The first byte of its source. -/
  start : Nat
  /-- The byte after its source. -/
  stop : Nat
  deriving DecidableEq, Repr

/-- The size of a text in bytes of its UTF-8 form. -/
def byteLength (cs : List Char) : Nat := cs.foldr (·.utf8Size + ·) 0

/-- Skipping loses nothing. -/
theorem lead_append (m : Mode) (cs : List Char) :
    (lead m cs).skipped ++ (lead m cs).rest = cs := by
  fun_induction lead m cs <;> simp_all [Lead.cons]

/-- Without a line end, what follows the skipped text is empty or starts with a word character. -/
theorem lead_rest (m : Mode) (cs : List Char) (h : (lead m cs).lineEnd = false) :
    ∀ c ∈ (lead m cs).rest.head?, isBoundary c = false := by
  fun_induction lead m cs <;> simp_all [Lead.cons]

/-- A line end is one of the skipped characters. -/
theorem lead_skipped_ne_nil (m : Mode) (cs : List Char) (h : (lead m cs).lineEnd = true) :
    (lead m cs).skipped ≠ [] := by
  fun_induction lead m cs <;> simp_all [Lead.cons]

/-- Cutting a segment off loses nothing. -/
theorem piece_append (cs : List Char) : (piece cs).source ++ (piece cs).rest = cs := by
  have whole := lead_append .plain cs
  unfold piece Lead.piece
  split
  · simpa [Piece.source] using whole
  · simpa only [Piece.source, List.append_assoc, List.take_append_drop,
      List.takeWhile_append_dropWhile] using whole

/-- The source of the first segment of a non-empty text is not empty. -/
theorem piece_source_ne_nil {cs : List Char} (h : cs ≠ []) : (piece cs).source ≠ [] := by
  have whole := lead_append .plain cs
  have start := lead_rest .plain cs
  have cut := lead_skipped_ne_nil .plain cs
  unfold piece Lead.piece
  split
  · rename_i ended
    simpa [Piece.source] using cut ended
  · rename_i running
    cases rest : (lead .plain cs).rest with
    | nil => simp_all [Piece.source]
    | cons c r =>
      have hc : isBoundary c = false := start (by simpa using running) c (by simp [rest])
      simp [Piece.source, hc]

/-- Cutting a segment off a non-empty text makes it shorter. -/
theorem piece_rest_lt {cs : List Char} (h : cs ≠ []) : (piece cs).rest.length < cs.length := by
  have total := congrArg List.length (piece_append cs)
  have := List.length_pos_iff.mpr (piece_source_ne_nil h)
  simp only [List.length_append] at total
  omega

/-- The segments of a text whose first byte is at `start`. -/
def segmentsFrom (start : Nat) (cs : List Char) : List Segment :=
  if _h : cs = [] then []
  else
    let p := piece cs
    let stop := start + byteLength p.source
    { text := String.ofList (clean .plain false p.source)
      symbol := (symbolOf p.word).map String.ofList
      start, stop } :: segmentsFrom stop p.rest
termination_by cs.length
decreasing_by exact piece_rest_lt _h

/-- The segments of a template, in order. -/
def segments (query : String) : List Segment := segmentsFrom 0 query.toList

/-- The symbols of a template, in order of appearance. -/
def symbols (query : String) : List String := (segments query).filterMap (·.symbol)

end SchemaEvolution.Template
