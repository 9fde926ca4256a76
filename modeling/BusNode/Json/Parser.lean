import BusNode.Json.Basic
import BusNode.Json.Numeral
import BusNode.Json.Text
/-!
# Reading JSON text

* `Token.scan` — the tokens of a text, character by character;
* `Json.ofTokens?` — the value of tokens, by a machine whose stack holds the open arrays and objects;
* `Json.parse?` — both.

The grammar is the strict one: no comment, no trailing comma, no other blank than space, tab, line feed and
carriage return.
-/

namespace BusNode

/-! ## Tokens -/

inductive Token where
  | openBracket | closeBracket | openBrace | closeBrace | comma | colon
  | null | bool (b : Bool)
  | number (digits : List Char)
  /-- A string, as the characters between its quotes. -/
  | string (inside : List Char)
  deriving DecidableEq, Repr

namespace Token

/-- What the characters read last belong to; they are kept in reverse. -/
inductive Mode where
  | between
  | word (cs : List Char)
  | number (cs : List Char)
  | string (cs : List Char)
  | escape (cs : List Char)

def punctuation? : Char → Option Token
  | '[' => some .openBracket
  | ']' => some .closeBracket
  | '{' => some .openBrace
  | '}' => some .closeBrace
  | ',' => some .comma
  | ':' => some .colon
  | _ => none

def isBlank (c : Char) : Bool := c = ' ' || c = '\t' || c = '\n' || c = '\r'

def isNumberChar (c : Char) : Bool := c.isDigit || c = '-' || c = '+' || c = '.' || c = 'e' || c = 'E'

def word? (cs : List Char) : Option Token :=
  if cs = "null".toList then some .null
  else if cs = "true".toList then some (.bool true)
  else if cs = "false".toList then some (.bool false)
  else none

def number? (cs : List Char) : Option Token :=
  if (Numeral.parse? cs).isSome then some (.number cs) else none

/-- The tokens read so far, the last one first, and what the characters read last belong to. -/
structure Scanner where
  tokens : List Token
  mode : Mode

/-- A character outside words, numbers and strings. -/
def start? (ts : List Token) (c : Char) : Option Scanner :=
  if isBlank c then some ⟨ts, .between⟩
  else if c = '"' then some ⟨ts, .string []⟩
  else if c.isDigit || c = '-' then some ⟨ts, .number [c]⟩
  else if c.isAlpha then some ⟨ts, .word [c]⟩
  else (punctuation? c).map fun t => ⟨t :: ts, .between⟩

/-- One character more. -/
def advance? : Scanner → Char → Option Scanner
  | ⟨ts, .between⟩, c => start? ts c
  | ⟨ts, .word cs⟩, c =>
    if c.isAlpha then some ⟨ts, .word (c :: cs)⟩
    else (word? cs.reverse).bind fun t => start? (t :: ts) c
  | ⟨ts, .number cs⟩, c =>
    if isNumberChar c then some ⟨ts, .number (c :: cs)⟩
    else (number? cs.reverse).bind fun t => start? (t :: ts) c
  | ⟨ts, .string cs⟩, c =>
    if c = '"' then some ⟨.string cs.reverse :: ts, .between⟩
    else if c = '\\' then some ⟨ts, .escape (c :: cs)⟩
    else some ⟨ts, .string (c :: cs)⟩
  | ⟨ts, .escape cs⟩, c => some ⟨ts, .string (c :: cs)⟩

/-- The end of the text. -/
def finish? : Scanner → Option (List Token)
  | ⟨ts, .between⟩ => some ts.reverse
  | ⟨ts, .word cs⟩ => (word? cs.reverse).map fun t => (t :: ts).reverse
  | ⟨ts, .number cs⟩ => (number? cs.reverse).map fun t => (t :: ts).reverse
  | ⟨_, .string _⟩ => none
  | ⟨_, .escape _⟩ => none

def scan (cs : List Char) : Option (List Token) := (cs.foldlM advance? ⟨[], .between⟩).bind finish?

end Token

/-! ## Values -/

/-- The value of a string token. -/
def Json.ofInside? (inside : List Char) : Option Json :=
  (Text.decode inside).map fun ps => match Text.ofPoints ps with
    | some cs => .string (String.ofList cs)
    | none => .unpaired

/-- The key of a string token. -/
def Key.ofInside? (inside : List Char) : Option Key :=
  (Text.decode inside).map fun ps => match Text.ofPoints ps with
    | some cs => if inside.contains '\\' then .escaped (String.ofList cs) else .plain (String.ofList cs)
    | none => .unpaired

/-- An open array or object, with what it holds so far in reverse. -/
inductive Frame where
  | items (done : List Json)
  | members (done : List (Key × Json)) (key : Key)

/-- What may come next; `first` allows the closing bracket of an empty array or object. -/
inductive Expect where
  | value (first : Bool) (outer : List Frame)
  | key (first : Bool) (done : List (Key × Json)) (outer : List Frame)
  | colon (key : Key) (done : List (Key × Json)) (outer : List Frame)
  | after (v : Json) (outer : List Frame)

namespace Expect

def step : Expect → Token → Option Expect
  | .value _ o, .null => some (.after .null o)
  | .value _ o, .bool b => some (.after (.bool b) o)
  | .value _ o, .number ds => some (.after (.number (String.ofList ds)) o)
  | .value _ o, .string s => (Json.ofInside? s).map (.after · o)
  | .value _ o, .openBracket => some (.value true (.items [] :: o))
  | .value _ o, .openBrace => some (.key true [] o)
  | .value true (.items [] :: o), .closeBracket => some (.after (.array []) o)
  | .key _ done o, .string s => (Key.ofInside? s).map (.colon · done o)
  | .key true _ o, .closeBrace => some (.after (.object []) o)
  | .colon k done o, .colon => some (.value false (.members done k :: o))
  | .after v (.items done :: o), .comma => some (.value false (.items (v :: done) :: o))
  | .after v (.items done :: o), .closeBracket => some (.after (.array (v :: done).reverse) o)
  | .after v (.members done k :: o), .comma => some (.key false ((k, v) :: done) o)
  | .after v (.members done k :: o), .closeBrace => some (.after (.object ((k, v) :: done).reverse) o)
  | _, _ => none

def run (s : Expect) (ts : List Token) : Option Expect := ts.foldlM step s

end Expect

def Json.ofTokens? (ts : List Token) : Option Json :=
  match Expect.run (.value false []) ts with
  | some (.after v []) => some v
  | _ => none

/-- The value of a text. -/
def Json.parse? (s : String) : Option Json := do
  Json.ofTokens? (← Token.scan s.toList)

end BusNode
