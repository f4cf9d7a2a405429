import ByteGrammar.Grammar.Forms

/-
  Rules of whitespace and comments.

  Main declarations:
    * `Comments`, `Comments.standard`
    * `Comments.Rule`, `Comments.ofRules`
    * `Comments.skipper`
-/

------------------------------------------------------------
-- Rules
------------------------------------------------------------

namespace ByteGrammar

/- Which comments there are: whether blanks count as
  whitespace, the openers of comments that end with their
  line, and the openers and closers of the others. -/
structure Comments where
  blanks : Bool
  lines : List String
  blocks : List (String × String)

namespace Comments

/- Blanks and no comments. -/
def standard : Comments :=
  ⟨true, [], []⟩

/- One change of the rules. -/
inductive Rule where
  | blanks (count : Bool)
  | line (opener : String)
  | block (opener closer : String)

/- The rules with one change. Openers of a kind keep the
  order in which they are added. -/
def apply
    (comments : Comments) :
    Rule → Comments
  | .blanks count => { comments with blanks := count }
  | .line opener =>
      { comments with lines := comments.lines ++ [opener] }
  | .block opener closer =>
      { comments with
        blocks := comments.blocks ++ [(opener, closer)] }

/- The rules that some changes make. -/
def ofRules
    (rules : List Rule) :
    Comments :=
  rules.foldl apply standard

end Comments

end ByteGrammar

------------------------------------------------------------
-- Parsers
------------------------------------------------------------

namespace ByteGrammar

namespace Comments

/- A comment up to the end of its line. -/
def lineComment
    (opener : String) :
    Parser :=
  .both (.text opener) (.takeUntil true (.text "\n"))

/- What is said of a block comment without its closer. -/
def unterminated
    (closer : String) :
    String :=
  "unterminated block comment, expected `" ++ closer ++ "`"

/- A comment up to its closer, which must come. -/
def blockComment
    (opener closer : String) :
    Parser :=
  .both (.text opener)
    (.expect (unterminated closer)
      (.both (.takeUntil false (.text closer))
        (.text closer)))

/- What counts as one piece of whitespace: blanks first, then
  the comments of a line, then the others. -/
def pieces
    (comments : Comments) :
    List Parser :=
  (if comments.blanks then
      [Parser.discard .whitespaces]
    else []) ++
    comments.lines.map (fun opener =>
      Parser.discard (lineComment opener)) ++
    comments.blocks.map fun (opener, closer) =>
      Parser.discard (blockComment opener closer)

/- The whitespace parser of the rules: as many pieces as
  there are. -/
def skipper
    (comments : Comments) :
    Parser :=
  Parser.discard (Parser.many (Parser.choice comments.pieces))

end Comments

end ByteGrammar
