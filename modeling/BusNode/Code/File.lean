import BusNode.Code.Identifier
import BusNode.Code.Object
/-!
# Generated files

* `Item` — one part of a file: a comment, a directive, a type, an object with or without its initializer;
* `Item.lines` — its lines;
* `File` — the items of a file in order, and its text;
* `Pair` — a header and a source of one stem.
-/

namespace BusNode

/-! ## Items -/

/-- What a defined name stands for. -/
inductive Meaning where
  | number (n : Nat)
  /-- The sum of other defined names. -/
  | sum (names : List String)
  /-- Any text. -/
  | text (s : String)
  deriving DecidableEq, Repr

/-- Names added up, in brackets. -/
def symbolicSum (names : List String) : String := "(" ++ " + ".intercalate names ++ ")"

def Meaning.render : Meaning → String
  | .number n => s!"({decimal n}U)"
  | .sum names => symbolicSum names
  | .text s => s

inductive Item where
  /-- A line as it is. -/
  | line (text : String)
  | blank
  /-- A blank line and a heading. -/
  | heading (title : String)
  /-- The comment at the top of a file. -/
  | fileComment (brief : String) (details : List String)
  | openGuard (name : String)
  | closeGuard
  | openLinkage
  | closeLinkage
  | includes (file : String)
  /-- A defined name with its parameters in brackets, if it has any. -/
  | define (name parameters : String) (meaning : Meaning)
  | defineIdentifier (stem : String) (id : Identifier)
  | checkIdentifier (stem : String) (id : Identifier)
  /-- A record type with the declarations of its members. -/
  | recordType (name : String) (members : List String)
  /-- An object without initializer. -/
  | declare (o : Object) (place : Option Placement)
  /-- An object with a braced initializer. -/
  | object (o : Object) (rows : List Row) (place : Option Placement)
  /-- An object with an initializer on its line. -/
  | inlineObject (o : Object) (value : Expr) (comment : Option String)
  /-- An array with the lines of its initializer. -/
  | listing (o : Object) (lines : List String)
  /-- Any declaration with a braced initializer. -/
  | initializer (declaration : String) (rows : List Row)
  deriving Repr

/-- The width of headings and separators in bytes. -/
def lineWidth : Nat := 120

/-- A heading filled up with dashes, at least three. -/
def headingLine (title : String) : String :=
  let head := s!"/* -- {title} "
  head ++ String.ofList (List.replicate (max (lineWidth - (head.utf8ByteSize + 3)) 3) '-') ++ " */"

/-- A braced initializer with its semicolon. -/
def initializerLines (rows : List Row) : List String := Row.appendLast ";" (Row.braced rows)

namespace Item

def separator : String := "//" ++ String.ofList (List.replicate (lineWidth - 2) '-')

def lines : Item → List String
  | .line text => [text]
  | .blank => [""]
  | .heading title => ["", headingLine title]
  | .fileComment brief details =>
    [separator, "/*!", "   \\file", s!"   \\brief       {brief}"] ++
      (if details.isEmpty then [] else "" :: details.map Row.indent) ++
      ["", "   This file was generated. Manual changes will be lost.", "*/", separator]
  | .openGuard name => [s!"#ifndef {name}", s!"#define {name}"]
  | .closeGuard => ["", "#endif"]
  | .openLinkage => ["", "#ifdef __cplusplus", "extern \"C\" \x7b", "#endif"]
  | .closeLinkage => ["", "#ifdef __cplusplus", "\x7d //end of extern \"C\"", "#endif"]
  | .includes file => [s!"#include \"{file}\""]
  | .define name parameters meaning => [s!"#define {name}{parameters} {meaning.render}"]
  | .defineIdentifier stem id => id.defineLines stem
  | .checkIdentifier stem id => [id.checkLine stem]
  | .recordType name members => ["typedef struct", "\x7b"] ++ members.map Row.indent ++ [s!"\x7d {name};"]
  | .declare o place => Placement.lines place o ";" []
  | .object o rows place => Placement.lines place o " =" (initializerLines rows)
  | .inlineObject o value comment =>
    [s!"{o.text} = {value.text};" ++
      match comment with
      | none => ""
      | some c => s!" /* {c} */"]
  | .listing o ls => [s!"{o.text} =", "\x7b"] ++ ls.map Row.indent ++ ["\x7d;"]
  | .initializer declaration rows => s!"{declaration} =" :: initializerLines rows

end Item

/-! ## Files -/

structure File where
  items : List Item
  deriving Repr

namespace File

def lines (f : File) : List String := f.items.flatMap Item.lines

/-- The text of the file; every line ends with a line feed, and a file without lines is one empty line. -/
def text (f : File) : String := "\n".intercalate f.lines ++ "\n"

/-- The opening of a header: its guard, what it includes, and its identifier. -/
def headerStart (stem brief : String) (includes : List String) (id : Identifier) : List Item :=
  [Item.fileComment brief [], .openGuard (upper stem ++ "_H"), .heading "Includes", .includes "stwtypes.h"] ++
    includes.map Item.includes ++ [Item.openLinkage, .heading "Defines", .defineIdentifier stem id]

def headerEnd : List Item := [Item.closeLinkage, .closeGuard]

/-- The opening of a source: what it includes, its own header first, and the check of the identifier. -/
def sourceStart (stem brief : String) (includes : List String) (id : Identifier) : List Item :=
  [Item.fileComment brief [], .heading "Includes", .includes "stwtypes.h", .includes (stem ++ ".h")] ++
    includes.map Item.includes ++
    [Item.heading "Defines", .line "///check for correct version of the generated header", .checkIdentifier stem id]

end File

/-- A header and a source that share a stem. -/
structure Pair where
  stem : String
  header : File
  source : File
  deriving Repr

namespace Pair

def headerName (p : Pair) : String := p.stem ++ ".h"
def sourceName (p : Pair) : String := p.stem ++ ".c"

end Pair

end BusNode
