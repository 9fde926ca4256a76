import BusNode.Code.File
import Mathlib.Data.List.Infix
/-!
# Braced initializers without comments and white space

* `uncommented` — a text without its comments, as a compiler takes them out;
* `dense` — what is left of lines when comments and white space are gone;
* `Row.compact` — the text of a row tree: between braces the rows, one comma between any two of them;
* `Row.IsTree` — a tree whose leaves open no comment and whose comments do not close early;
* `initializer_follows_rows` — the dense text of a braced tree is its compact text, and an initializer puts it between
  `=` and a semicolon.

A nested row is lines that are already rendered when its comma and its comment are put on the last of them, and every
level indents them once more. So the induction over a tree is about lines that are indented any number of times, with
any text after them.
-/

namespace BusNode

/-! ## Comments -/

/-- What a reader of code is in. -/
inductive Reading where
  | code
  /-- The second character of what opens a comment. -/
  | opening
  /-- A comment that is closed by its end. -/
  | comment
  /-- The second character of what closes a comment. -/
  | closing
  /-- A comment up to the end of the line. -/
  | lineComment
  deriving DecidableEq, Repr

/-- A text without its comments. Only some dialects have comments up to the end of the line. -/
def uncommented (hasLineComments : Bool) : Reading → List Char → List Char
  | _, [] => []
  | .code, c :: cs =>
    if c = '/' ∧ cs.head? = some '*' then uncommented hasLineComments .opening cs
    else if hasLineComments ∧ c = '/' ∧ cs.head? = some '/' then uncommented hasLineComments .lineComment cs
    else c :: uncommented hasLineComments .code cs
  | .opening, _ :: cs => uncommented hasLineComments .comment cs
  | .comment, c :: cs =>
    if c = '*' ∧ cs.head? = some '/' then uncommented hasLineComments .closing cs
    else uncommented hasLineComments .comment cs
  | .closing, _ :: cs => uncommented hasLineComments .code cs
  | .lineComment, c :: cs =>
    if c = '\n' then c :: uncommented hasLineComments .code cs else uncommented hasLineComments .lineComment cs

/-- White space of a source text. -/
def isSpace (c : Char) : Bool := c ∈ [' ', '\t', '\n', '\x0b', '\x0c', '\r']

/-- A text without its white space. -/
def unspaced (cs : List Char) : List Char := cs.filter (!isSpace ·)

/-- The text of lines, each with its end. -/
def lineText (lines : List String) : List Char := lines.flatMap fun l => l.toList ++ ['\n']

/-- What is left of a text when comments and white space are gone. -/
def denseChars (hasLineComments : Bool) (t : List Char) : List Char := unspaced (uncommented hasLineComments .code t)

/-- What is left of lines when comments and white space are gone. -/
def dense (hasLineComments : Bool) (lines : List String) : List Char := denseChars hasLineComments (lineText lines)

/-- No comment begins in the text. -/
def OpensNone (hasLineComments : Bool) (cs : List Char) : Prop :=
  ¬['/', '*'] <:+: cs ∧ (hasLineComments = true → ¬['/', '/'] <:+: cs)

/-- No comment ends in the text. -/
def ClosesNone (cs : List Char) : Prop := ¬['*', '/'] <:+: cs

instance (hasLineComments : Bool) (cs : List Char) : Decidable (OpensNone hasLineComments cs) :=
  inferInstanceAs (Decidable (_ ∧ _))

instance (cs : List Char) : Decidable (ClosesNone cs) := inferInstanceAs (Decidable (¬_))

/-! ## Row trees -/

namespace Row

mutual

/-- The text of a row without its comment and its white space. -/
def compact : Row → List Char
  | .value e _ => unspaced e.text.toList
  | .lines ls _ => ls.flatMap fun l => unspaced l.toList
  | .nested rows _ => '{' :: [','].intercalate (compactList rows) ++ ['}']

def compactList : List Row → List (List Char)
  | [] => []
  | r :: rs => r.compact :: compactList rs

end

/-- Rows between braces, one comma between any two of them. -/
def compactBraces (rows : List Row) : List Char := '{' :: [','].intercalate (rows.map compact) ++ ['}']

/-- A tree of values whose texts open no comment; the comments beside them do not close early. -/
inductive IsTree (hasLineComments : Bool) : Row → Prop
  | value (e : Expr) (comment : Option String) (he : OpensNone hasLineComments e.text.toList)
    (hc : ∀ c ∈ comment, ClosesNone c.toList) : IsTree hasLineComments (.value e comment)
  | nested (rows : List Row) (comment : Option String) (hrows : ∀ r ∈ rows, IsTree hasLineComments r)
    (hc : ∀ c ∈ comment, ClosesNone c.toList) : IsTree hasLineComments (.nested rows comment)

theorem compactList_eq_map (rows : List Row) : compactList rows = rows.map compact := by
  induction rows with
  | nil => rfl
  | cons r rows ih => rw [compactList, ih, List.map_cons]

theorem compact_nested (rows : List Row) (comment : Option String) :
    (Row.nested rows comment).compact = compactBraces rows := by
  rw [compact, compactList_eq_map, compactBraces]

theorem appendLast_concat (suffix : String) (ls : List String) (l : String) :
    appendLast suffix (ls ++ [l]) = ls ++ [l ++ suffix] := by
  induction ls with
  | nil => rfl
  | cons l' ls ih =>
    cases ls with
    | nil => rfl
    | cons _ _ => exact congrArg (l' :: ·) ih

/-- What follows a nested row stands behind its closing brace. -/
theorem appendLast_body_nested (suffix : String) (rows : List Row) (comment : Option String) :
    appendLast suffix (Row.nested rows comment).body = "\x7b" :: inner rows ++ ["\x7d" ++ suffix] := by
  rw [body]
  exact appendLast_concat suffix ("\x7b" :: inner rows) "\x7d"

end Row

theorem initializerLines_eq (rows : List Row) : initializerLines rows = "\x7b" :: Row.inner rows ++ ["\x7d;"] :=
  Row.appendLast_concat ";" ("\x7b" :: Row.inner rows) "\x7d"

/-! ## Reading on -/

section Reading

variable {b : Bool} {c : Char} {s t : List Char}

/-- The text makes no comment of a slash before it. -/
def Resumes (b : Bool) (t : List Char) : Prop := t.head? ≠ some '*' ∧ (b = true → t.head? ≠ some '/')

theorem resumes_cons (hstar : c ≠ '*') (hslash : c ≠ '/') : Resumes b (c :: t) :=
  ⟨fun h => hstar (Option.some.inj h), fun _ h => hslash (Option.some.inj h)⟩

/-- A character that opens no comment is kept, unless it is white space. -/
theorem denseChars_cons (h : c = '/' → Resumes b t) : denseChars b (c :: t) = unspaced [c] ++ denseChars b t := by
  have hopen : ¬(c = '/' ∧ t.head? = some '*') := fun h' => (h h'.1).1 h'.2
  have hline : ¬(b = true ∧ c = '/' ∧ t.head? = some '/') := fun h' => (h h'.2.1).2 h'.1 h'.2.2
  unfold denseChars
  rw [uncommented, if_neg hopen, if_neg hline]
  exact List.filter_append [c] _

theorem denseChars_space (h : isSpace c = true) : denseChars b (c :: t) = denseChars b t := by
  have hc : c = '/' → Resumes b t := by
    rintro rfl
    exact absurd h (by decide)
  rw [denseChars_cons hc]
  simp [unspaced, h]

/-- A text in which no comment begins is kept as a whole. -/
theorem denseChars_append (hs : OpensNone b s) (ht : Resumes b t) :
    denseChars b (s ++ t) = unspaced s ++ denseChars b t := by
  induction s with
  | nil => rfl
  | cons c s ih =>
    have hsuffix : s <:+: c :: s := (List.suffix_cons c s).isInfix
    have htail : OpensNone b s := ⟨fun h => hs.1 (h.trans hsuffix), fun hb h => hs.2 hb (h.trans hsuffix)⟩
    have hc : c = '/' → Resumes b (s ++ t) := by
      rintro rfl
      cases s with
      | nil => exact ht
      | cons d s =>
        have hpair (e : Char) (he : (d :: s ++ t).head? = some e) : ['/', e] <:+: '/' :: d :: s := by
          obtain rfl : d = e := Option.some.inj he
          exact (List.prefix_append ['/', d] s).isInfix
        exact ⟨fun he => hs.1 (hpair _ he), fun hb he => hs.2 hb (hpair _ he)⟩
    rw [List.cons_append, denseChars_cons hc, ih htail, ← List.append_assoc]
    exact congrArg (· ++ denseChars b t) (List.filter_append [c] s).symm

/-- Nothing is left of a comment. -/
theorem uncommented_comment (hs : ClosesNone s) :
    uncommented b .comment (s ++ ' ' :: '*' :: '/' :: t) = uncommented b .code t := by
  induction s with
  | nil => simp [uncommented]
  | cons c s ih =>
    have htail : ClosesNone s := fun h => hs (h.trans (List.suffix_cons c s).isInfix)
    have hc : ¬(c = '*' ∧ (s ++ ' ' :: '*' :: '/' :: t).head? = some '/') := by
      rintro ⟨rfl, hslash⟩
      cases s with
      | nil => cases hslash
      | cons d s =>
        obtain rfl : d = '/' := Option.some.inj hslash
        exact hs (List.prefix_append ['*', '/'] s).isInfix
    rw [List.cons_append, uncommented, if_neg hc, ih htail]

theorem denseChars_comment (hs : ClosesNone s) :
    denseChars b (' ' :: '/' :: '*' :: ' ' :: (s ++ ' ' :: '*' :: '/' :: t)) = denseChars b t := by
  rw [denseChars_space rfl]
  unfold denseChars
  have hblank : ¬(' ' = '*' ∧ (s ++ ' ' :: '*' :: '/' :: t).head? = some '/') := fun h => absurd h.1 (by decide)
  rw [uncommented, if_pos ⟨rfl, rfl⟩, uncommented, uncommented, if_neg hblank, uncommented_comment hs]

end Reading

/-! ## Lines of rows -/

section Rows

variable {b : Bool} {r : Row} {rows : List Row}

theorem lineText_append (ls ls' : List String) : lineText (ls ++ ls') = lineText ls ++ lineText ls' :=
  List.flatMap_append

theorem lineText_cons_append (l : String) (ls : List String) (t : List Char) :
    lineText (l :: ls) ++ t = l.toList ++ '\n' :: (lineText ls ++ t) := by
  simp [lineText]

/-- White space in front of a line is gone, however often the line was indented. -/
theorem denseChars_indent (k : Nat) (l : String) (t : List Char) :
    denseChars b ((Row.indent^[k] l).toList ++ t) = denseChars b (l.toList ++ t) := by
  induction k generalizing l with
  | zero => rfl
  | succ k ih =>
    have hindent : (Row.indent l).toList = ' ' :: ' ' :: ' ' :: l.toList := String.toList_append
    rw [Function.iterate_succ_apply, ih, hindent, List.cons_append, List.cons_append, List.cons_append,
      denseChars_space rfl, denseChars_space rfl, denseChars_space rfl]

theorem toList_ending_none (isLast : Bool) : (Row.ending isLast none).toList = if isLast then [] else [','] := by
  cases isLast <;> rfl

theorem toList_ending_some (isLast : Bool) (c : String) : (Row.ending isLast (some c)).toList =
    (if isLast then [] else [',']) ++ ' ' :: '/' :: '*' :: ' ' :: (c.toList ++ [' ', '*', '/']) := by
  cases isLast <;> simp [Row.ending, toString]

/-- What follows a row leaves its comma. -/
theorem denseChars_ending (isLast : Bool) {comment : Option String} (hc : ∀ c ∈ comment, ClosesNone c.toList)
    (t : List Char) :
    denseChars b ((Row.ending isLast comment).toList ++ '\n' :: t) =
      (if isLast then [] else [',']) ++ denseChars b t := by
  have hend : denseChars b ('\n' :: t) = denseChars b t := denseChars_space rfl
  have hcomma (s : List Char) :
      denseChars b ((if isLast then [] else [',']) ++ s) = (if isLast then [] else [',']) ++ denseChars b s := by
    cases isLast with
    | false => exact denseChars_cons fun h => absurd h (by decide)
    | true => rfl
  cases comment with
  | none => rw [toList_ending_none, hcomma, hend]
  | some c =>
    have hcomment := (denseChars_comment (b := b) (t := '\n' :: t) (hc c rfl)).trans hend
    rw [toList_ending_some, List.append_assoc, hcomma, ← hcomment]
    simp

theorem resumes_ending (isLast : Bool) (comment : Option String) (t : List Char) :
    Resumes b ((Row.ending isLast comment).toList ++ '\n' :: t) := by
  cases comment with
  | none =>
    rw [toList_ending_none]
    cases isLast <;> exact resumes_cons (by decide) (by decide)
  | some c =>
    rw [toList_ending_some]
    cases isLast <;> exact resumes_cons (by decide) (by decide)

/-- The last line of a row: a text, and what follows the row. -/
theorem denseChars_line (k : Nat) {text : String} (htext : OpensNone b text.toList) (isLast : Bool)
    {comment : Option String} (hc : ∀ c ∈ comment, ClosesNone c.toList) (t : List Char) :
    denseChars b (lineText [Row.indent^[k] (text ++ Row.ending isLast comment)] ++ t) =
      unspaced text.toList ++ (if isLast then [] else [',']) ++ denseChars b t := by
  rw [lineText_cons_append, denseChars_indent, String.toList_append, List.append_assoc]
  rw [denseChars_append htext (resumes_ending isLast comment _), List.append_assoc]
  exact congrArg (unspaced text.toList ++ ·) (denseChars_ending isLast hc t)

/-- The lines of a row that stands among others, indented any number of times. -/
def LeavesRow (b : Bool) (r : Row) : Prop :=
  ∀ k isLast t,
    denseChars b (lineText ((Row.appendLast (Row.ending isLast r.comment) r.body).map Row.indent^[k]) ++ t) =
      r.compact ++ (if isLast then [] else [',']) ++ denseChars b t

theorem denseChars_inner (hrows : ∀ r ∈ rows, LeavesRow b r) (k : Nat) (t : List Char) :
    denseChars b (lineText ((Row.inner rows).map Row.indent^[k]) ++ t) =
      [','].intercalate (rows.map Row.compact) ++ denseChars b t := by
  induction rows generalizing t with
  | nil => rfl
  | cons r rows ih =>
    have hr := hrows r (.head _) (k + 1) rows.isEmpty
    have hrest := ih fun r hr => hrows r (.tail _ hr)
    rw [Row.inner, List.map_append, List.map_map, ← Function.iterate_succ, lineText_append, List.append_assoc, hr,
      hrest]
    cases rows with
    | nil => simp
    | cons r' rows => simp [List.intercalate_cons_cons]

/-- Rows between an opening brace and a last line. -/
theorem denseChars_braces (hrows : ∀ r ∈ rows, LeavesRow b r) (k : Nat) (last : String) (t : List Char) :
    denseChars b (lineText (("\x7b" :: Row.inner rows ++ [last]).map Row.indent^[k]) ++ t) =
      '{' :: [','].intercalate (rows.map Row.compact) ++ denseChars b (lineText [Row.indent^[k] last] ++ t) := by
  have hopen (s : List Char) : denseChars b ("\x7b".toList ++ '\n' :: s) = '{' :: denseChars b s := by
    show denseChars b ('{' :: '\n' :: s) = _
    rw [denseChars_cons fun h => absurd h (by decide), denseChars_space rfl]
    rfl
  rw [List.map_append, List.map_cons, List.cons_append, lineText_cons_append, denseChars_indent, hopen, lineText_append,
    List.append_assoc, denseChars_inner hrows]
  rfl

theorem Row.IsTree.leavesRow (h : r.IsTree b) : LeavesRow b r := by
  induction h with
  | value e comment he hc =>
    intro k isLast t
    exact denseChars_line k he isLast hc t
  | nested rows comment _ hc ih =>
    intro k isLast t
    have hclose : OpensNone b "\x7d".toList := by cases b <;> decide
    have hline := denseChars_line k hclose isLast hc t
    rw [Row.appendLast_body_nested, denseChars_braces ih, Row.compact_nested, Row.compactBraces, Row.comment, hline]
    simp only [List.cons_append, List.append_assoc]
    rfl

/-- What a braced tree leaves, but for the line that closes it. -/
theorem dense_of_isTree (h : ∀ r ∈ rows, r.IsTree b) (last : String) :
    dense b ("\x7b" :: Row.inner rows ++ [last]) =
      '{' :: [','].intercalate (rows.map Row.compact) ++ dense b [last] := by
  have hdense := denseChars_braces (fun r hr => (h r hr).leavesRow) 0 last []
  rw [List.append_nil, List.append_nil, Function.iterate_zero, List.map_id] at hdense
  exact hdense

theorem dense_braced (h : ∀ r ∈ rows, r.IsTree b) : dense b (Row.braced rows) = Row.compactBraces rows := by
  have hclose : dense b ["\x7d"] = ['}'] := by cases b <;> decide
  rw [Row.braced, dense_of_isTree h, hclose, Row.compactBraces]

/-- The semicolon stands behind the last brace. -/
theorem dense_initializerLines (h : ∀ r ∈ rows, r.IsTree b) :
    dense b (initializerLines rows) = Row.compactBraces rows ++ [';'] := by
  have hclose : dense b ["\x7d;"] = ['}', ';'] := by cases b <;> decide
  rw [initializerLines_eq, dense_of_isTree h, hclose, Row.compactBraces, List.append_assoc]
  rfl

/-- The line of a declaration, and what follows. -/
theorem dense_declaration {declaration : String} (hd : OpensNone b declaration.toList) (lines : List String) :
    dense b (s!"{declaration} =" :: lines) = unspaced declaration.toList ++ '=' :: dense b lines := by
  have hchars : lineText (s!"{declaration} =" :: lines) =
      declaration.toList ++ ' ' :: '=' :: '\n' :: lineText lines := by
    simp [lineText, toString]
  show denseChars b (lineText _) = _
  rw [hchars, denseChars_append hd (resumes_cons (by decide) (by decide)), denseChars_space rfl,
    denseChars_cons fun h => absurd h (by decide), denseChars_space rfl]
  rfl

end Rows

/-- **A braced tree is its rows between braces, one comma between any two of them**, and an initializer is the
declaration, `=`, this text and a semicolon. The lines of a nested row are those of its braced rows, and the definition
of an object is an initializer. -/
theorem initializer_follows_rows (hasLineComments : Bool) (rows : List Row)
    (h : ∀ r ∈ rows, r.IsTree hasLineComments) :
    (∀ comment, (Row.nested rows comment).body = Row.braced rows) ∧
    dense hasLineComments (Row.braced rows) = Row.compactBraces rows ∧
    (∀ declaration, ∃ body, (Item.initializer declaration rows).lines = s!"{declaration} =" :: body ∧
      dense hasLineComments body = Row.compactBraces rows ++ [';'] ∧
      (OpensNone hasLineComments declaration.toList →
        dense hasLineComments (Item.initializer declaration rows).lines =
          unspaced declaration.toList ++ '=' :: Row.compactBraces rows ++ [';'])) ∧
    ∀ o : Object, (Item.object o rows none).lines = (Item.initializer o.text rows).lines := by
  refine ⟨fun comment => by rw [Row.body, Row.braced], dense_braced h, fun declaration => ?_, fun o => rfl⟩
  refine ⟨initializerLines rows, rfl, dense_initializerLines h, fun hd => ?_⟩
  show dense hasLineComments (s!"{declaration} =" :: initializerLines rows) = _
  rw [dense_declaration hd, dense_initializerLines h, List.append_assoc]
  rfl

/-- A nested row with a comment of its own, an empty one, and comments that look like others. -/
def shelf : List Row := [
  .nested [.commented (.list [.constant "1U", .constant "2U"]) "limits /* of both", .constant "3U"] (some "// first"),
  .nested [] none,
  .noted "NULL" "last"]

theorem isTree_shelf : ∀ r ∈ shelf, r.IsTree true := by
  have hvalue {e : Expr} {c : String} (he : OpensNone true e.text.toList) (hc : ClosesNone c.toList) :
      (Row.commented e c).IsTree true := .value e _ he (by rintro _ ⟨⟩; exact hc)
  simp only [shelf, List.forall_mem_cons]
  refine ⟨.nested _ _ ?_ (by rintro _ ⟨⟩; decide), .nested _ _ (fun _ h => nomatch h) (fun _ h => nomatch h),
    hvalue (by decide) (by decide), fun _ h => nomatch h⟩
  simp only [List.forall_mem_cons]
  exact ⟨hvalue (by decide) (by decide), .value _ _ (by decide) (fun _ h => nomatch h), fun _ h => nomatch h⟩

theorem initializer_follows_rows_shelf : (∀ r ∈ shelf, r.IsTree true) ∧
    dense true (Item.initializer "static const T_Shelf mt_Shelf" shelf).lines =
      "staticconstT_Shelfmt_Shelf=\x7b\x7b\x7b1U,2U\x7d,3U\x7d,\x7b\x7d,NULL\x7d;".toList := by
  obtain ⟨-, -, hinitializer, -⟩ := initializer_follows_rows true shelf isTree_shelf
  obtain ⟨-, -, -, hdense⟩ := hinitializer "static const T_Shelf mt_Shelf"
  refine ⟨isTree_shelf, (hdense (by decide)).trans ?_⟩
  decide

end BusNode
