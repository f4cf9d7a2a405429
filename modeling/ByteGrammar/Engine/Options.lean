/-
  Options of a parse.

  Main declarations:
    * `Options`, `Options.standard`
    * `Options.Field`, `Options.get`, `Options.set`
    * `Options.describe`
-/

------------------------------------------------------------
-- Options
------------------------------------------------------------

namespace ByteGrammar

/- Whether blanks include line breaks, whether a rule may
  run inside itself at one position, and whether a parse
  must use up its input. -/
structure Options where
  skipNewlines : Bool
  loopDetection : Bool
  requireEof : Bool
deriving DecidableEq

namespace Options

/- All options are on unless said otherwise. -/
def standard : Options :=
  ⟨true, true, true⟩

/- The names of the options, in their order. -/
inductive Field where
  | skipNewlines
  | loopDetection
  | requireEof
deriving DecidableEq

namespace Field

/- All options in their order. -/
def all : List Field :=
  [.skipNewlines, .loopDetection, .requireEof]

/- How an option is spelled. -/
def name :
    Field → String
  | .skipNewlines => "skip_newlines"
  | .loopDetection => "loop_detection"
  | .requireEof => "require_eof"

/- The option of a spelling. -/
def ofName?
    (name : String) :
    Option Field :=
  all.find? fun field => field.name == name

end Field

/- The state of an option. -/
def get
    (options : Options) :
    Field → Bool
  | .skipNewlines => options.skipNewlines
  | .loopDetection => options.loopDetection
  | .requireEof => options.requireEof

/- Changes the state of an option. -/
def set
    (options : Options)
    (field : Field)
    (value : Bool) :
    Options :=
  match field with
  | .skipNewlines => { options with skipNewlines := value }
  | .loopDetection => { options with loopDetection := value }
  | .requireEof => { options with requireEof := value }

/- How options show themselves. -/
def describe
    (options : Options) :
    String :=
  let fields := Field.all.map fun field =>
    field.name ++ ": " ++ toString (options.get field)
  "ParseOptions \x7b " ++ ", ".intercalate fields ++ " \x7d"

end Options

end ByteGrammar
