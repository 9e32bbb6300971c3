import GraphLisp.Text.Numeral
import GraphLisp.Text.Surrogate
import GraphLisp.Yaml.Cursor
import GraphLisp.Yaml.Refusal
/-!
# Tokens of a YAML document

`Token.scan` takes a document apart. Indentation shows up as tokens that open and close blocks.
A simple key is recognised late, by the colon after it; so whatever may start one is remembered,
and the tokens that announce the key are put in front of it afterwards. Where a document cannot be
taken apart any further, the tokens end with the refusal, behind those that are certain by then:
whoever puts the tokens together may find fault with an earlier one.
-/

namespace GraphLisp.Yaml

/-- A line in front of a document that says how to read it. -/
inductive Directive where
  /-- The version of YAML; only its first number counts. -/
  | version (major : Nat)
  /-- What a handle in tags stands for. -/
  | handle (name stem : String)
  | other

/-- The tokens of a document. -/
inductive Token where
  | streamEnd
  | directive (d : Directive)
  | documentStart
  | documentEnd
  | blockSequenceStart
  | blockMappingStart
  | blockEnd
  | flowSequenceStart
  | flowSequenceEnd
  | flowMappingStart
  | flowMappingEnd
  | key
  | value
  | blockEntry
  | flowEntry
  | alias (name : String)
  | anchor (name : String)
  /-- A tag: a handle, unless it is given in full, and what follows. -/
  | tag (handle : Option String) (suffix : String)
  | scalar (text : String) (plain : Bool)
  /-- The document cannot be taken apart from here on. -/
  | refusal (r : Refusal)

namespace Token

/-- Whether a sequence may begin with a token. -/
def startsSequence : Token → Bool
  | .blockSequenceStart | .flowSequenceStart | .blockEntry => true
  | _ => false

/-- Whether a mapping may begin with a token. -/
def startsMapping : Token → Bool
  | .blockMappingStart | .flowMappingStart => true
  | _ => false

/-- Something that may turn out to be a simple key. -/
structure Candidate where
  /-- The number of its first token. -/
  token : Nat
  /-- Whether nothing but a key can stand here. -/
  required : Bool
  index : Nat
  line : Nat
  column : Nat

/-- The state of taking a document apart. -/
structure Scan where
  cursor : Cursor
  /-- More than the document has characters, which bounds every search in it. -/
  limit : Nat
  /-- How many brackets are open. -/
  flow : Nat
  indent : Int
  indents : List Int
  /-- Whether a simple key may start here. -/
  keyAllowed : Bool
  /-- What may be a simple key, for each number of open brackets. -/
  candidates : List (Nat × Candidate)
  /-- The tokens so far, the last one first. -/
  tokens : List Token
  count : Nat

/-- A step of taking a document apart; it fails on what is no document. -/
abbrev Step := StateT Scan (Except Refusal)

/-- The document is refused. -/
def refuse {α : Type} : Step α := throw .document

/-- What has to be there in a document. -/
def need {α : Type} : Option α → Step α
  | some a => return a
  | none => refuse

/-- Adds a token. -/
def emit (t : Token) : Step Unit :=
  modify fun s => { s with tokens := t :: s.tokens, count := s.count + 1 }

/-- Puts a token in front of the one with a number. -/
def emitAt (number : Nat) (t : Token) : Step Unit :=
  modify fun s =>
    let later := s.tokens.take (s.count - number)
    let earlier := s.tokens.drop (s.count - number)
    { s with tokens := later ++ t :: earlier, count := s.count + 1 }

/-- Moves on. -/
def moveTo (c : Cursor) : Step Unit := modify fun s => { s with cursor := c }

/-- Says whether a simple key may start next. -/
def allowKey (allowed : Bool) : Step Unit := modify fun s => { s with keyAllowed := allowed }

/-! ## Indentation -/

/-- Closes the blocks that are further in than a column. -/
def closeBlocks (column : Int) : List Int → Step Unit
  | [] => return
  | outer :: indents => do
    if column < (← get).indent then
      modify fun s => { s with indent := outer, indents := indents }
      emit .blockEnd
      closeBlocks column indents

/-- Closes blocks by indentation. Between brackets indentation does not count. -/
def unindent (column : Int) : Step Unit := do
  let s ← get
  if s.flow = 0 then closeBlocks column s.indents

/-- Opens a block at a column, unless one is open there. -/
def indentTo (column : Nat) : Step Bool := do
  let s ← get
  if s.indent < column then
    set { s with indent := column, indents := s.indent :: s.indents }
    return true
  else return false

/-! ## Simple keys -/

/-- Forgets what may be a simple key at this number of brackets. -/
def forgetCandidate : Step Unit := do
  let s ← get
  match s.candidates.lookup s.flow with
  | none => return
  | some k =>
    if k.required then refuse
    set { s with candidates := s.candidates.filter (·.1 != s.flow) }

/-- Remembers that a simple key may start here. -/
def noteCandidate : Step Unit := do
  let s ← get
  if s.keyAllowed then
    let required := s.flow = 0 && s.indent == Int.ofNat s.cursor.column
    forgetCandidate
    let k : Candidate := ⟨s.count, required, s.cursor.index, s.cursor.line, s.cursor.column⟩
    modify fun s => { s with candidates := (s.flow, k) :: s.candidates }

/-- A simple key stays on one line and within 1024 characters. -/
def dropStale : Step Unit := do
  let s ← get
  let isStale (k : Candidate) : Bool := k.line != s.cursor.line || 1024 < s.cursor.index - k.index
  if s.candidates.any fun k => isStale k.2 && k.2.required then refuse
  set { s with candidates := s.candidates.filter fun k => !isStale k.2 }

/-! ## Gaps -/

/-- Passes spaces, comments and line ends; says whether there was a line end. -/
def passGap : Nat → Cursor → Bool → Cursor × Bool
  | 0, c, crossed => (c, crossed)
  | fuel + 1, c, crossed =>
    let c := c.skip (· == ' ')
    let c := if c.peek == some '#' then c.restOfLine.2 else c
    match c.takeBreak with
    | some (_, c) => passGap fuel c true
    | none => (c, crossed)

/-- Goes to the next token. After a line end a simple key may start, except between brackets. -/
def toNext : Step Unit := do
  let s ← get
  let c := s.cursor
  let start := if c.index = 0 ∧ c.peek = some '\uFEFF' then c.advance else c
  let (c, crossed) := passGap s.limit start false
  moveTo c
  if crossed && s.flow = 0 then allowKey true

/-! ## Plain scalars -/

/-- The characters of a word of a plain scalar. -/
def plainWord (inFlow : Bool) : List Char → List Char
  | [] => []
  | c :: rest =>
    let ends := isGap (some c) ||
      (c == ':' && (isGap rest.head? ||
        (inFlow && rest.head?.any fun d => d ∈ [',', '[', ']', '{', '}']))) ||
      (inFlow && c ∈ [',', '?', '[', ']', '{', '}'])
    if ends then [] else c :: plainWord inFlow rest

/-- What folded lines come to: one line end is a space, each further one stays. -/
def folded (first : Char) (more : List Char) : List Char :=
  if first != '\n' then first :: more else if more.isEmpty then [' '] else more

/-- The gap after a word: what it comes to, whether it crossed a line end, and where it ends.
A gap of nothing ends the scalar, and so does a mark between documents. -/
def plainGap (fuel : Nat) (c : Cursor) : List Char × Bool × Cursor :=
  let (spaces, after) := c.span (· == ' ')
  match after.takeBreak with
  | none => (spaces, false, after)
  | some (first, c) =>
    if isDocumentMark c.rest then ([], true, c)
    else
      let (more, c) := lines fuel c
      if isDocumentMark c.rest && c.column = 0 then ([], true, c)
      else (folded first more, true, c)
where
  /-- The blank lines that follow. -/
  lines : Nat → Cursor → List Char × Cursor
    | 0, c => ([], c)
    | fuel + 1, c =>
      let c := c.skip (· == ' ')
      match c.takeBreak with
      | none => ([], c)
      | some (ch, c) =>
        if isDocumentMark c.rest then ([ch], c)
        else
          let (rest, c) := lines fuel c
          (ch :: rest, c)

/-- The words of a plain scalar, with what lies between them. -/
def plainWords (inFlow : Bool) (indent : Int) : Nat → Cursor → Bool → List Char × Bool × Cursor
  | 0, c, crossed => ([], crossed, c)
  | fuel + 1, c, crossed =>
    let word := if c.peek == some '#' then [] else plainWord inFlow c.rest
    if word.isEmpty then ([], crossed, c)
    else
      let (gap, crossed, c) := plainGap fuel (c.drop word.length)
      let ended := gap.isEmpty || c.peek == some '#' || (!inFlow && Int.ofNat c.column < indent)
      if ended then (word, crossed, c)
      else
        match plainWords inFlow indent fuel c crossed with
        | ([], crossed, c) => (word, crossed, c)
        | (rest, crossed, c) => (word ++ gap ++ rest, crossed, c)

/-- Takes a plain scalar. -/
def takePlain : Step Unit := do
  noteCandidate
  let s ← get
  let (text, crossed, c) := plainWords (s.flow != 0) (s.indent + 1) s.limit s.cursor false
  moveTo c
  allowKey crossed
  emit (.scalar (Text.ofChars text) true)

/-! ## Quoted scalars -/

/-- The character that an escape of one letter stands for. -/
def escape? : Char → Option Char
  | '0' => some '\x00'
  | 'a' => some '\x07'
  | 'b' => some '\x08'
  | 't' => some '\t'
  | '\t' => some '\t'
  | 'n' => some '\n'
  | 'v' => some '\x0b'
  | 'f' => some '\x0c'
  | 'r' => some '\r'
  | 'e' => some '\x1b'
  | ' ' => some ' '
  | '"' => some '"'
  | '\\' => some '\\'
  | '/' => some '/'
  | 'N' => some '\u0085'
  | '_' => some '\u00a0'
  | 'L' => some '\u2028'
  | 'P' => some '\u2029'
  | _ => none

/-- How many digits follow an escape by number. -/
def escapeWidth? : Char → Option Nat
  | 'x' => some 2
  | 'u' => some 4
  | 'U' => some 8
  | _ => none

/-- Passes blank lines inside quotes. A mark between documents may not stand there. -/
def quotedBreaks : Nat → Cursor → Except Refusal (List Char × Cursor)
  | 0, _ => .error .document
  | fuel + 1, c =>
    if isDocumentMark c.rest then .error .document
    else
      let c := c.skip fun ch => ch == ' ' || ch == '\t'
      match c.takeBreak with
      | none => .ok ([], c)
      | some (ch, c) => (quotedBreaks fuel c).map fun (rest, c) => (ch :: rest, c)

/-- The letter with a number. -/
def letterOf (n : Nat) : Except Refusal Text.Letter :=
  if n < 0x110000 then .ok (Text.letterOfUnit n)
  else if n < 0x80000000 then .error .codePoint
  else .error .overflow

/-- The letter that hexadecimal digits after an escape stand for. -/
def escapedLetter (width : Nat) (cs : List Char) : Except Refusal Text.Letter :=
  let digits := cs.take width
  match Text.natInBase? 16 digits with
  | some n => if digits.length = width then letterOf n else .error .document
  | none => .error .document

/-- The text inside quotes, spelt, and the place after the closing quote. -/
def quotedText (double : Bool) : Nat → Cursor → Except Refusal (List Char × Cursor)
  | 0, _ => .error .document
  | fuel + 1, c => do
    match c.rest with
    | [] => .error .document
    | '\'' :: '\'' :: _ =>
      if double then
        let (text, c) ← quotedText double fuel c.advance
        return ('\'' :: text, c)
      else
        let (text, c) ← quotedText double fuel c.advance.advance
        return ('\'' :: text, c)
    | '\\' :: e :: _ =>
      if !double then
        let (text, c) ← quotedText double fuel c.advance
        return ('\\' :: text, c)
      else if isBreak e then
        let (more, c) ← quotedBreaks fuel ((c.advance.takeBreak.map (·.2)).getD c.advance)
        let (text, c) ← quotedText double fuel c
        return (more ++ text, c)
      else
        match escape? e, escapeWidth? e with
        | some ch, _ =>
          let (text, c) ← quotedText double fuel c.advance.advance
          return (ch :: text, c)
        | none, some width =>
          let letter ← escapedLetter width (c.rest.drop 2)
          let (text, c) ← quotedText double fuel (c.drop (2 + width))
          return (letter.spell ++ text, c)
        | none, none => .error .document
    | ch :: _ =>
      if ch = (if double then '"' else '\'') then return ([], c.advance)
      else if ch = ' ' ∨ ch = '\t' ∨ isBreak ch then
        let (spaces, after) := c.span fun ch => ch == ' ' || ch == '\t'
        match after.takeBreak with
        | none =>
          let (text, c) ← quotedText double fuel after
          return (spaces ++ text, c)
        | some (first, c) =>
          let (more, c) ← quotedBreaks fuel c
          let (text, c) ← quotedText double fuel c
          return (folded first more ++ text, c)
      else
        let (text, c) ← quotedText double fuel c.advance
        return ((Text.Letter.char ch).spell ++ text, c)

/-- Takes a quoted scalar. -/
def takeQuoted (double : Bool) : Step Unit := do
  noteCandidate
  allowKey false
  let s ← get
  let (text, c) ← StateT.lift (quotedText double s.limit s.cursor.advance)
  moveTo c
  emit (.scalar (String.ofList text) false)

/-! ## Block scalars -/

/-- What a block scalar does with the line ends at its end. -/
inductive Chomping where
  | clip
  | strip
  | keep
deriving DecidableEq

/-- The header of a block scalar, its two signs in either order: chomping and indentation. -/
def blockHeader (c : Cursor) : Option (Chomping × Option Nat × Cursor) :=
  let chomping (c : Cursor) : Chomping × Cursor :=
    match c.peek with
    | some '+' => (.keep, c.advance)
    | some '-' => (.strip, c.advance)
    | _ => (.clip, c)
  let step (c : Cursor) : Option Nat × Cursor :=
    match c.peek with
    | some d => if d.isDigit then (some (d.toNat - '0'.toNat), c.advance) else (none, c)
    | none => (none, c)
  let (ending, c) := chomping c
  let (increment, c) := step c
  let (ending, c) := if ending = .clip then chomping c else (ending, c)
  if increment = some 0 then none
  else if isLineEnd c.peek || c.peek == some ' ' then
    let c := c.skip (· == ' ')
    let c := if c.peek == some '#' then c.restOfLine.2 else c
    if isLineEnd c.peek then
      some (ending, increment, (c.takeBreak.map (·.2)).getD c)
    else none
  else none

/-- Passes the blank lines at the start of a block scalar, and finds how far in it begins. -/
def blockStart : Nat → Cursor → Nat → List Char × Nat × Cursor
  | 0, c, deepest => ([], deepest, c)
  | fuel + 1, c, deepest =>
    let c := c.skip (· == ' ')
    let deepest := max deepest c.column
    match c.takeBreak with
    | none => ([], deepest, c)
    | some (ch, c) =>
      let (rest, deepest, c) := blockStart fuel c deepest
      (ch :: rest, deepest, c)

/-- Passes spaces up to a column. -/
def spacesTo (indent : Nat) (c : Cursor) : Cursor :=
  c.drop ((c.rest.take (indent - c.column)).takeWhile (· == ' ')).length

/-- The lines of a block scalar, given the line ends before the first of them. -/
def blockLines (fold : Bool) (ending : Chomping) (indent : Nat) :
    Nat → Cursor → List Char → List Char × Cursor
  | 0, c, _ => ([], c)
  | fuel + 1, c, breaks =>
    if c.column != indent || c.rest.isEmpty then ([], c)
    else
      let isMore (ch : Option Char) : Bool := ch == some ' ' || ch == some '\t'
      let leading := !isMore c.peek
      let (text, c) := c.restOfLine
      let (lineEnd, c) := match c.takeBreak with
        | some (ch, c) => ([ch], c)
        | none => ([], c)
      let (after, c) := Cursor.takeBreaks (spacesTo indent) fuel c
      if c.column == indent && !c.rest.isEmpty then
        let joint :=
          if fold && lineEnd == ['\n'] && leading && !isMore c.peek then
            if after.isEmpty then [' '] else []
          else lineEnd
        let (rest, c) := blockLines fold ending indent fuel c after
        (breaks ++ text ++ joint ++ rest, c)
      else
        let tail := match ending with
          | .strip => []
          | .clip => lineEnd
          | .keep => lineEnd ++ after
        (breaks ++ text ++ tail, c)

/-- Takes a block scalar. -/
def takeBlock (fold : Bool) : Step Unit := do
  allowKey true
  forgetCandidate
  let s ← get
  let (ending, increment, c) ← need (blockHeader s.cursor.advance)
  let least := max 1 (s.indent + 1).toNat
  let (breaks, indent, c) := match increment with
    | some n =>
      let indent := least + n - 1
      let (breaks, c) := Cursor.takeBreaks (spacesTo indent) s.limit c
      (breaks, indent, c)
    | none =>
      let (breaks, deepest, c) := blockStart s.limit c 0
      (breaks, max least deepest, c)
  if c.column = indent ∧ !c.rest.isEmpty then
    let (text, c) := blockLines fold ending indent s.limit c breaks
    moveTo c
    emit (.scalar (Text.ofChars text) false)
  else
    moveTo c
    emit (.scalar (Text.ofChars (if ending = .keep then breaks else [])) false)

/-! ## Anchors, tags and directives -/

/-- A character of a name: an ASCII letter or digit, a hyphen or an underscore. -/
def isNameChar (c : Char) : Bool := c.isAlphanum || c == '-' || c == '_'

/-- Whether a space or the end of the line comes next. -/
def endsHere (c : Cursor) : Bool := c.peek == some ' ' || isLineEnd c.peek

/-- The name after the sign of an anchor or an alias. -/
def takeName : Step String := do
  let c := (← get).cursor.advance
  let (name, c) := c.span isNameChar
  let ends := isGap c.peek ||
    c.peek.any fun ch => ch ∈ ['?', ':', ',', ']', '}', '%', '@', '\x60']
  if name.isEmpty || !ends then refuse
  moveTo c
  return String.ofList name

/-- The handle of a tag: a sign alone, or a name between two signs. -/
def tagHandle (c : Cursor) : Option (String × Cursor) :=
  if c.peek != some '!' then none
  else
    let c := c.advance
    if c.peek == some ' ' then some ("!", c)
    else
      let (name, c) := c.span isNameChar
      if c.peek == some '!' then some (String.ofList ('!' :: name ++ ['!']), c.advance) else none

/-- A character that may occur in a tag. -/
def isTagChar (c : Char) : Bool :=
  c.isAlphanum || c ∈ ['-', ';', '/', '?', ':', '@', '&', '=', '+', '$', ',', '_', '.', '!', '~',
    '*', '\'', '(', ')', '[', ']']

/-- The bytes of escapes that follow each other in a tag. -/
def tagBytes : Nat → Cursor → Option (List UInt8 × Cursor)
  | 0, c => some ([], c)
  | fuel + 1, c =>
    match c.rest with
    | '%' :: rest => do
      let digits := rest.take 2
      let n ← Text.natInBase? 16 digits
      if digits.length < 2 then none
      else
        let (bytes, c) ← tagBytes fuel (c.drop 3)
        return (UInt8.ofNat n :: bytes, c)
    | _ => some ([], c)

/-- The characters of a tag, with escapes for bytes among them. -/
def tagChars : Nat → Cursor → Option (List Char × Cursor)
  | 0, c => some ([], c)
  | fuel + 1, c => do
    match c.peek with
    | some '%' =>
      let (bytes, c) ← tagBytes fuel c
      let text ← String.fromUTF8? ⟨bytes.toArray⟩
      let (more, c) ← tagChars fuel c
      return (Text.spell text.toList ++ more, c)
    | some ch =>
      if isTagChar ch then
        let (more, c) ← tagChars fuel c.advance
        return (ch :: more, c)
      else return ([], c)
    | none => return ([], c)

/-- A tag, or what a handle stands for; it may not be empty. -/
def tagName (limit : Nat) (c : Cursor) : Option (String × Cursor) :=
  match tagChars limit c with
  | some (ch :: cs, c) => some (String.ofList (ch :: cs), c)
  | _ => none

/-- The handle and the rest of a tag. -/
def tagParts (limit : Nat) (c : Cursor) : Option (Option String × String × Cursor) := do
  let body := c.advance
  if body.peek == some '<' then
    let (name, c) ← tagName limit body.advance
    if c.peek == some '>' then return (none, name, c.advance) else none
  else if isGap body.peek then return (none, "!", body)
  else
    let word := body.rest.takeWhile fun ch => ch != ' ' && !isBreak ch
    let (handle, c) ← if word.contains '!' then tagHandle c else some ("!", body)
    let (name, c) ← tagName limit c
    return (some handle, name, c)

/-- Takes a tag. -/
def takeTag : Step Unit := do
  let s ← get
  let (handle, name, c) ← need (tagParts s.limit s.cursor)
  if !endsHere c then refuse
  moveTo c
  emit (.tag handle name)

/-- The number of a version. -/
def versionNumber (c : Cursor) : Except Refusal (Nat × Cursor) :=
  let (ds, c) := c.span Char.isDigit
  if Decimal.maxDigits < ds.length then .error (.tooLong ds.length)
  else match Text.natInBase? 10 ds with
    | some n => .ok (n, c)
    | none => .error .document

/-- The two numbers of a version, of which the first one counts. -/
def version (c : Cursor) : Except Refusal (Directive × Cursor) := do
  let (major, c) ← versionNumber c
  if c.peek != some '.' then .error .document
  else
    let (_, c) ← versionNumber c.advance
    return (.version major, c)

/-- A handle and what it stands for. -/
def handle? (limit : Nat) (c : Cursor) : Option (Directive × Cursor) := do
  let (handle, c) ← tagHandle c
  if c.peek != some ' ' then none
  else
    let (stem, c) ← tagName limit (c.skip (· == ' '))
    return (.handle handle stem, c)

/-- What a directive says, and where it ends. -/
def readDirective (limit : Nat) (c : Cursor) : Except Refusal (Directive × Cursor) :=
  let (name, c) := c.advance.span isNameChar
  let words := c.skip (· == ' ')
  if name.isEmpty || !endsHere c then .error .document
  else if name = "YAML".toList then version words
  else if name = "TAG".toList then (handle? limit words).elim (.error .document) .ok
  else .ok (.other, c.restOfLine.2)

/-- The place after a directive and its line. Only a comment may follow on that line. -/
def directiveEnd (c : Cursor) : Option Cursor :=
  if !endsHere c then none
  else
    let c := c.skip (· == ' ')
    let c := if c.peek == some '#' then c.restOfLine.2 else c
    if isLineEnd c.peek then some ((c.takeBreak.map (·.2)).getD c) else none

/-! ## Tokens -/

/-- Starts a bracket. -/
def openBracket (t : Token) : Step Unit := do
  noteCandidate
  modify fun s => { s with flow := s.flow + 1, cursor := s.cursor.advance }
  allowKey true
  emit t

/-- Ends a bracket. -/
def closeBracket (t : Token) : Step Unit := do
  if (← get).flow = 0 then refuse
  forgetCandidate
  modify fun s => { s with flow := s.flow - 1, cursor := s.cursor.advance }
  allowKey false
  emit t

/-- Takes the mark in front of an entry of a block sequence. -/
def takeEntry : Step Unit := do
  let s ← get
  if s.flow = 0 then
    if !s.keyAllowed then refuse
    if ← indentTo s.cursor.column then emit .blockSequenceStart
  allowKey true
  forgetCandidate
  moveTo s.cursor.advance
  emit .blockEntry

/-- Takes the mark in front of a key that is not simple. -/
def takeKey : Step Unit := do
  let s ← get
  if s.flow = 0 then
    if !s.keyAllowed then refuse
    if ← indentTo s.cursor.column then emit .blockMappingStart
  allowKey (s.flow = 0)
  forgetCandidate
  moveTo s.cursor.advance
  emit .key

/-- Takes the mark in front of a value. If a simple key may have come before, it is one. -/
def takeValue : Step Unit := do
  let s ← get
  match s.candidates.lookup s.flow with
  | some k =>
    modify fun s => { s with candidates := s.candidates.filter (·.1 != s.flow) }
    emitAt k.token .key
    if s.flow = 0 then
      if ← indentTo k.column then emitAt k.token .blockMappingStart
    allowKey false
  | none =>
    if s.flow = 0 then
      if !s.keyAllowed then refuse
      if ← indentTo s.cursor.column then emit .blockMappingStart
    allowKey (s.flow = 0)
    forgetCandidate
  moveTo s.cursor.advance
  emit .value

/-- Ends all blocks. -/
def endBlocks : Step Unit := do
  unindent (-1)
  forgetCandidate
  allowKey false

/-- Takes a mark between documents. -/
def takeMark (t : Token) (after : Cursor) : Step Unit := do
  endBlocks
  moveTo after
  emit t

/-- Takes a directive. -/
def takeDirective : Step Unit := do
  endBlocks
  let s ← get
  let (d, c) ← StateT.lift (readDirective s.limit s.cursor)
  moveTo (← need (directiveEnd c))
  emit (.directive d)

/-- Whether a plain scalar may start here. -/
def startsPlain (inFlow : Bool) : List Char → Bool
  | [] => false
  | c :: rest =>
    let isIndicator := c ∈ ['-', '?', ':', ',', '[', ']', '{', '}', '#', '&', '*', '!', '|', '>',
      '\'', '"', '%', '@', '\x60']
    (!isGap (some c) && !isIndicator) ||
      (!isGap rest.head? && (c == '-' || (!inFlow && (c == '?' || c == ':'))))

/-- Takes the next token; says whether there was one. -/
def next : Step Bool := do
  toNext
  dropStale
  unindent (← get).cursor.column
  let s ← get
  let c := s.cursor
  let inFlow := s.flow != 0
  let atStart := c.column = 0
  match c.rest with
  | [] =>
    unindent (-1)
    forgetCandidate
    emit .streamEnd
    return false
  | ch :: rest =>
    let gapNext := isGap rest.head?
    if ch = '%' ∧ atStart then takeDirective
    else if ch = '-' ∧ atStart ∧ isDocumentMark c.rest then takeMark .documentStart (c.drop 3)
    else if ch = '.' ∧ atStart ∧ isDocumentMark c.rest then takeMark .documentEnd (c.drop 3)
    else if ch = '[' then openBracket .flowSequenceStart
    else if ch = '{' then openBracket .flowMappingStart
    else if ch = ']' then closeBracket .flowSequenceEnd
    else if ch = '}' then closeBracket .flowMappingEnd
    else if ch = ',' then
      allowKey true
      forgetCandidate
      moveTo c.advance
      emit .flowEntry
    else if ch = '-' ∧ gapNext then takeEntry
    else if ch = '?' ∧ (inFlow ∨ gapNext) then takeKey
    else if ch = ':' ∧ (inFlow ∨ gapNext) then takeValue
    else if ch = '*' ∨ ch = '&' then
      noteCandidate
      allowKey false
      let name ← takeName
      emit (if ch = '*' then .alias name else .anchor name)
    else if ch = '!' then
      noteCandidate
      allowKey false
      takeTag
    else if ch = '|' ∧ !inFlow then takeBlock false
    else if ch = '>' ∧ !inFlow then takeBlock true
    else if ch = '\'' then takeQuoted false
    else if ch = '"' then takeQuoted true
    else if startsPlain inFlow c.rest then takePlain
    else refuse
    return true

/-- How many tokens are certain: no key will be put in front of them. -/
def certain (s : Scan) : Nat :=
  let s := match dropStale s with
    | .ok (_, s) => s
    | .error _ => s
  s.candidates.foldl (fun n k => min n k.2.token) s.count

/-- Takes tokens to the end, or to where that fails. Every token but the last one takes up a
character. -/
def all : Nat → Scan → List Token
  | 0, s => s.tokens.reverse
  | fuel + 1, s =>
    match next s with
    | .ok (true, s) => all fuel s
    | .ok (false, s) => s.tokens.reverse
    | .error r => s.tokens.reverse.take (certain s) ++ [.refusal r]

/-- Whether a character may occur in a document. -/
def isAllowed (c : Char) : Bool :=
  let n := c.toNat
  n == 0x09 || n == 0x0A || n == 0x0D || (0x20 ≤ n && n ≤ 0x7E) || n == 0x85 ||
    (0xA0 ≤ n && n ≤ 0xD7FF) || (0xE000 ≤ n && n ≤ 0xFFFD) || 0x10000 ≤ n

/-- The tokens of a document. A text that is no list of characters, or of others than may occur, has
none but a refusal. -/
def scan (s : String) : List Token :=
  match (Text.chars? s).filter (·.all isAllowed) with
  | some cs =>
    let limit := cs.length + 1
    all limit ⟨⟨cs, 0, 0, 0⟩, limit, 0, -1, [], true, [], [], 0⟩
  | none => [.refusal .document]

end Token

end GraphLisp.Yaml
