import RepoGraph.Decimal.Reading
import RepoGraph.Json.Basic
import RepoGraph.Json.Fault
import RepoGraph.Text.Split

/-!
# Reading JSON

`Json.read` turns a text into a value. The readers of parts take the text from where a part begins
and return its value with the text that follows it; where they stop, they return the complaint with
the text from which it holds, and `locate` turns that into a place in the document. The reader goes
beyond the standard in one way: `NaN`, `Infinity` and `-Infinity` are numbers. A text is a sequence
of characters and cannot hold half of a surrogate pair, so that such a half in an escape is read as
the replacement character (`ofCode`).
-/

namespace RepoGraph.Json

open RepoGraph.Decimal RepoGraph.Text

/-- Why a reader stopped. -/
inductive Stop
  /-- A complaint about the text from here on. -/
  | at (complaint : Complaint) (rest : List Char)
  /-- A whole number with too many digits. -/
  | longInteger (digits : Nat)

/-- A part of a document with the text that follows it, or why there is none. -/
abbrev Part (α : Type) := Except Stop (α × List Char)

/-- White space between the parts of a document. -/
def isSpace (c : Char) : Bool := c == ' ' || c == '\t' || c == '\n' || c == '\r'

/-- The text after white space. -/
def skip (s : List Char) : List Char := s.dropWhile isSpace

/-- The number of four hexadecimal digits. -/
def fourHex? (a b c d : Char) : Option Nat :=
  match hexValue? a, hexValue? b, hexValue? c, hexValue? d with
  | some w, some x, some y, some z => some (((w * 16 + x) * 16 + y) * 16 + z)
  | _, _, _, _ => none

/-- The character that one letter after a backslash stands for. -/
def escaped? (c : Char) : Option Char :=
  match c with
  | '"' => some '"'
  | '\\' => some '\\'
  | '/' => some '/'
  | 'b' => some '\x08'
  | 'f' => some '\x0c'
  | 'n' => some '\n'
  | 'r' => some '\r'
  | 't' => some '\t'
  | _ => none

/-- The code is the first half of a pair. -/
def isHighHalf (n : Nat) : Bool := 0xD800 ≤ n && n ≤ 0xDBFF

/-- The code is the second half of a pair. -/
def isLowHalf (n : Nat) : Bool := 0xDC00 ≤ n && n ≤ 0xDFFF

/-- The character of a code. A half without its other half, which is no character, becomes the
replacement character. -/
def ofCode (n : Nat) : Char := if isHighHalf n || isLowHalf n then '\uFFFD' else Char.ofNat n

/-- The rest of a text after its opening mark, from which `whole` begins; `done` holds the
characters read so far, last first. -/
def readText (whole : List Char) (done : List Char) : List Char → Part String
  | [] => .error (.at .unterminated whole)
  | '"' :: rest => .ok (String.ofList done.reverse, rest)
  | ['\\'] => .error (.at .unterminated whole)
  | '\\' :: 'u' :: a :: b :: c :: d :: '\\' :: 'u' :: e :: f :: g :: h :: z :: rest =>
    match fourHex? a b c d with
    | none => .error (.at .code
        ('u' :: a :: b :: c :: d :: '\\' :: 'u' :: e :: f :: g :: h :: z :: rest))
    | some n =>
      if isHighHalf n then
        match fourHex? e f g h with
        | none => .error (.at .code ('u' :: e :: f :: g :: h :: z :: rest))
        | some m =>
          if isLowHalf m then
            readText whole (Char.ofNat (0x10000 + (n - 0xD800) * 0x400 + (m - 0xDC00)) :: done)
              (z :: rest)
          else
            readText whole (ofCode n :: done) ('\\' :: 'u' :: e :: f :: g :: h :: z :: rest)
      else readText whole (ofCode n :: done) ('\\' :: 'u' :: e :: f :: g :: h :: z :: rest)
  | '\\' :: 'u' :: a :: b :: c :: d :: z :: rest =>
    match fourHex? a b c d with
    | none => .error (.at .code ('u' :: a :: b :: c :: d :: z :: rest))
    | some n => readText whole (ofCode n :: done) (z :: rest)
  | '\\' :: 'u' :: rest => .error (.at .code ('u' :: rest))
  | '\\' :: c :: rest =>
    match escaped? c with
    | none => .error (.at .escape ('\\' :: c :: rest))
    | some e => readText whole (e :: done) rest
  | c :: rest =>
    if c.toNat < 0x20 then .error (.at .control (c :: rest))
    else readText whole (c :: done) rest

/-- The exponent part at the front of a text: its power of ten and what follows it. -/
def exponentPart? : List Char → Option (Int × List Char)
  | c :: cs =>
    if c = 'e' || c = 'E' then
      let (negative, body) := takeSign cs
      let ds := body.takeWhile isDigit
      if ds.isEmpty then none
      else
        let n : Int := digitsValue ds
        some (if negative then -n else n, body.dropWhile isDigit)
    else none
  | [] => none

/-- A minus at the front of a text, and what follows it. -/
def takeMinus : List Char → Bool × List Char
  | '-' :: cs => (true, cs)
  | cs => (false, cs)

/-- The digits at the front of a text that count whole ones: nothing goes on after a zero. -/
def wholePart : List Char → List Char
  | '0' :: _ => ['0']
  | cs => cs.takeWhile isDigit

/-- The digits at the front of a text that count parts of one, after a point. -/
def fractionPart : List Char → List Char
  | '.' :: cs => cs.takeWhile isDigit
  | _ => []

/-- The number at the front of a text. -/
def readNumber (s : List Char) : Part Json :=
  let (negative, body) := takeMinus s
  let whole := wholePart body
  if whole.isEmpty then .error (.at .value s)
  else
    let rest := body.drop whole.length
    let fraction := fractionPart rest
    let rest := if fraction.isEmpty then rest else rest.drop (fraction.length + 1)
    let power := exponentPart? rest
    if fraction.isEmpty && power.isNone then
      if digitLimit < whole.length then .error (.longInteger whole.length)
      else
        let n : Int := digitsValue whole
        .ok (.int (if negative then -n else n), rest)
    else
      let (exponent, rest) := power.getD (0, rest)
      let x := Written.toFloat ⟨whole, fraction, exponent⟩
      .ok (.float (if negative then -x else x), rest)

/-- The words that are values. -/
def literals : List (List Char × Json) :=
  [(['n', 'u', 'l', 'l'], .null), (['t', 'r', 'u', 'e'], .bool true),
   (['f', 'a', 'l', 's', 'e'], .bool false), (['N', 'a', 'N'], .float (0.0 / 0.0)),
   (['I', 'n', 'f', 'i', 'n', 'i', 't', 'y'], .float (1.0 / 0.0)),
   (['-', 'I', 'n', 'f', 'i', 'n', 'i', 't', 'y'], .float (-1.0 / 0.0))]

/-- The word or number at the front of a text. -/
def readScalar (s : List Char) : Part Json :=
  match literals.findSome? fun l => (after? l.1 s).map fun rest => (l.2, rest) with
  | some part => .ok part
  | none => readNumber s

mutual

/-- The value at the front of a text. The bound falls by one at most where a value begins and where
an item or a member of it does, so twice the length of the text is enough. -/
def readValue : (bound : Nat) → List Char → Part Json
  | 0, s => .error (.at .value s)
  | bound + 1, s =>
    match s with
    | [] => .error (.at .value [])
    | '"' :: cs =>
      match readText s [] cs with
      | .error e => .error e
      | .ok (t, rest) => .ok (.str t, rest)
    | '[' :: cs =>
      match skip cs with
      | ']' :: rest => .ok (.arr [], rest)
      | rest => readItems bound [] rest
    | '{' :: cs =>
      match skip cs with
      | '}' :: rest => .ok (.obj [], rest)
      | rest => readMembers bound [] rest
    | _ => readScalar s

/-- The values of a list from one of them on; `done` holds those before it, last first. -/
def readItems : (bound : Nat) → List Json → List Char → Part Json
  | 0, _, s => .error (.at .value s)
  | bound + 1, done, s =>
    match readValue bound s with
    | .error e => .error e
    | .ok (v, rest) =>
      match skip rest with
      | ']' :: rest => .ok (.arr (v :: done).reverse, rest)
      | ',' :: rest => readItems bound (v :: done) (skip rest)
      | rest => .error (.at .comma rest)

/-- The members of an object from one of them on, after those of `done`. -/
def readMembers : (bound : Nat) → List (String × Json) → List Char → Part Json
  | 0, _, s => .error (.at .value s)
  | bound + 1, done, s =>
    match s with
    | '"' :: cs =>
      match readText s [] cs with
      | .error e => .error e
      | .ok (name, rest) =>
        match skip rest with
        | ':' :: rest =>
          match readValue bound (skip rest) with
          | .error e => .error e
          | .ok (v, rest) =>
            match skip rest with
            | '}' :: rest => .ok (.obj (setMember name v done), rest)
            | ',' :: rest => readMembers bound (setMember name v done) (skip rest)
            | rest => .error (.at .comma rest)
        | rest => .error (.at .colon rest)
    | s => .error (.at .memberName s)

end

/-- The place in a document where the text `rest` begins. -/
def locate (document : List Char) (complaint : Complaint) (rest : List Char) : Fault :=
  let offset := document.length - rest.length
  let before := document.take offset
  .malformed complaint offset (before.count '\n' + 1)
    ((before.reverse.takeWhile (· != '\n')).length + 1)

/-- The fault of a document in which a reader stopped. -/
def Stop.fault (document : List Char) : Stop → Fault
  | .at complaint rest => locate document complaint rest
  | .longInteger digits => .longInteger digits

/-- The value of a document, whatever it begins with. -/
def readDocument (document : List Char) : Except Fault Json :=
  match readValue (2 * document.length + 2) (skip document) with
  | .error stop => .error (stop.fault document)
  | .ok (v, rest) =>
    match skip rest with
    | [] => .ok v
    | rest => .error (locate document .extra rest)

/-- The value of a document, which may not begin with a byte order mark. -/
def readChars (document : List Char) : Except Fault Json :=
  if document.head? = some '\uFEFF' then .error (locate document .orderMark document)
  else readDocument document

/-- The value that a text writes, or what is wrong with the text. -/
def read (document : String) : Except Fault Json := readChars document.toList

end RepoGraph.Json
