/-
  The options of the command line.

  A word of the command line is an option or an argument (`Word.ofText`).  Options
  are a dash and a letter, or two dashes and a name of which a beginning is
  enough.  Letters without a value may share a dash; a value may be attached to
  its option or follow it.  What looks like a negative number, or has a space in
  it, is an argument even if it begins with a dash, and so is every word after
  a lone `--`.  Attached to an option, `--` stands for no value (`statedValue`).

  * `Options.parse` reads a command line, or gives the reason to end early: a
    call for help, or a misuse.
-/
import Reckon.Decimal.Integer
import Reckon.Failure

namespace Reckon.CommandLine

open Text (quote)

/-! ## Settings -/

/-- What an option sets. -/
inductive Setting where
  | help
  | define
  | float
  | places
  | verbose
  deriving DecidableEq

namespace Setting

/-- All settings. -/
def all : List Setting := [help, define, float, places, verbose]

/-- The letter after one dash. -/
def letter : Setting → Char
  | help => 'h'
  | define => 'D'
  | float => 'f'
  | places => 'p'
  | verbose => 'v'

/-- The name after two dashes. -/
def word : Setting → String
  | help => "help"
  | define => "define"
  | float => "float"
  | places => "places"
  | verbose => "verbose"

/-- Whether the option has a value. -/
def takesValue : Setting → Bool
  | define | places => true
  | help | float | verbose => false

/-- Both spellings of the option. -/
def label (s : Setting) : String := "-" ++ String.singleton s.letter ++ "/--" ++ s.word

/-- The setting of a letter. -/
def ofLetter? (c : Char) : Option Setting := all.find? (·.letter = c)

/-- The settings whose name begins in a certain way. -/
def withStart (start : String) : List Setting := all.filter fun s => start.toList <+: s.word.toList

end Setting

/-- How answers in floating point are rounded. -/
inductive Precision where
  /-- Not at all. -/
  | full
  /-- To a number of decimal places. -/
  | places (n : Int)
  /-- To decimal places of which the number is left out. -/
  | unstated

/-- What a command line asks for.  A definition may be left out, its option without a value. -/
structure Options where
  expression : Option String
  definitions : List (Option String)
  float : Bool
  precision : Precision
  verbose : Bool

/-- Nothing asked for. -/
def Options.initial : Options := ⟨none, [], false, .full, false⟩

/-- Why a command line is not carried out. -/
inductive Exit where
  /-- It asks for an explanation of the options. -/
  | help
  /-- It is not well formed. -/
  | misuse (message : String)
  /-- A definition ends in a failure that nothing catches. -/
  | failure (f : Failure)
  deriving DecidableEq

/-- A misuse of one option. -/
def Setting.misuse (s : Setting) (message : String) : Exit :=
  .misuse ("argument " ++ s.label ++ ": " ++ message)

/-! ## Words -/

/-- A word of the command line. -/
inductive Word where
  /-- A word that is no option. -/
  | argument (text : String)
  /-- The two dashes after which there are only arguments. -/
  | divider
  /-- An option, whether given by its letter, and with what attached. -/
  | option (setting : Setting) (byLetter : Bool) (attached : Option String)
  /-- A word that looks like an option but is none. -/
  | unknown (text : String)

/-- The parts of a text before and after its first equals sign. -/
def splitEquals (cs : List Char) : List Char × Option (List Char) :=
  match cs.dropWhile (· ≠ '=') with
  | [] => (cs, none)
  | _ :: rest => (cs.takeWhile (· ≠ '='), some rest)

/-- A negative number: a dash, then digits with at most one point, digits after it. -/
def isNegativeNumber (cs : List Char) : Bool :=
  match cs with
  | '-' :: rest =>
    let body := if rest.getLast? = some '\n' then rest.dropLast else rest
    let decimals (ds : List Char) : Bool := ds ≠ [] && ds.all Text.isDigit
    match body.dropWhile Text.isDigit with
    | [] => decimals body
    | '.' :: ds => decimals ds
    | _ => false
  | _ => false

/-- What a word is that begins with a dash and is no option. -/
def Word.ofDashed (cs : List Char) : Word :=
  if isNegativeNumber cs || ' ' ∈ cs then .argument (String.ofList cs)
  else .unknown (String.ofList cs)

/-- A word after two dashes, by the settings whose name it begins. -/
def Word.ofLong (text : String) (cs : List Char) : Except Exit Word :=
  let (start, attached) := splitEquals cs
  let found (s : Setting) : Word := .option s false (attached.map String.ofList)
  match Setting.withStart (String.ofList start) with
  | [] => .ok (Word.ofDashed text.toList)
  | [s] => .ok (found s)
  | ss =>
    let names := ", ".intercalate (ss.map fun s => "--" ++ s.word)
    .error (.misuse ("ambiguous option: " ++ text ++ " could match " ++ names))

/-- What a word is, before any divider. -/
def Word.ofText (text : String) : Except Exit Word :=
  match text.toList with
  | ['-', '-'] => .ok .divider
  | '-' :: '-' :: cs => Word.ofLong text cs
  | '-' :: c :: cs =>
    match Setting.ofLetter? c, cs with
    | none, _ => .ok (Word.ofDashed text.toList)
    | some s, [] => .ok (.option s true none)
    | some s, '=' :: rest => .ok (.option s true (some (String.ofList rest)))
    | some s, _ => .ok (.option s true (some (String.ofList cs)))
  | _ => .ok (.argument text)

/-- What the words of a command line are. -/
def Word.ofTexts : List String → Except Exit (List Word)
  | [] => .ok []
  | t :: ts => do
    match ← Word.ofText t with
    | .divider => return .divider :: ts.map .argument
    | w =>
      let ws ← ofTexts ts
      return w :: ws

/-! ## Settings of a word -/

/-- The settings of one word, each with its value, and a setting whose value is still missing. -/
structure Cluster where
  settings : List (Setting × String)
  lacking : Option Setting

/-- A setting given by its letter, and the further letters or the value attached to it. -/
def Cluster.ofLetters (s : Setting) : List Char → Except Exit Cluster
  | [] => .ok (if s.takesValue then ⟨[], some s⟩ else ⟨[(s, "")], none⟩)
  | c :: cs =>
    if s.takesValue then .ok ⟨[(s, String.ofList (c :: cs))], none⟩
    else
      match Setting.ofLetter? c with
      | none => .error (s.misuse ("ignored explicit argument " ++ quote (String.ofList (c :: cs))))
      | some next => do
        let rest ← ofLetters next cs
        return { rest with settings := (s, "") :: rest.settings }

/-- The settings of an option. -/
def Cluster.ofOption (s : Setting) (byLetter : Bool) (attached : Option String) :
    Except Exit Cluster :=
  match attached with
  | none => Cluster.ofLetters s []
  | some v =>
    if s.takesValue then .ok ⟨[(s, v)], none⟩
    else if byLetter ∧ v ≠ "" then Cluster.ofLetters s v.toList
    else .error (s.misuse ("ignored explicit argument " ++ quote v))

/-! ## Command lines -/

/-- The value of an option, unless it is left out. -/
def statedValue (v : String) : Option String := if v = "--" then none else some v

/-- The options after one more setting. -/
def Options.set (o : Options) (setting : Setting × String) : Except Exit Options :=
  match setting with
  | (.help, _) => .error .help
  | (.define, v) => .ok { o with definitions := o.definitions ++ [statedValue v] }
  | (.float, _) => .ok { o with float := true }
  | (.places, v) =>
    match statedValue v with
    | none => .ok { o with precision := .unstated }
    | some v =>
      match Decimal.readInt? v with
      | none => .error (Setting.places.misuse ("invalid int value: " ++ quote v))
      | some n => .ok { o with precision := .places n }
  | (.verbose, _) => .ok { o with verbose := true }

/-- The text of a word that follows a divider or all options. -/
def Word.text : Word → String
  | argument t | unknown t => t
  | divider => "--"
  | option s _ _ => s.label

/-- The options of a list of words, and the words for which there is no use. -/
def Options.ofWords (o : Options) : List Word → Except Exit (Options × List String)
  | [] => .ok (o, [])
  | .argument t :: rest =>
    match o.expression, rest with
    | none, .divider :: rest => .ok ({ o with expression := some t }, rest.map Word.text)
    | none, rest => ofWords { o with expression := some t } rest
    | some _, rest => do
      let (o, extra) ← ofWords o rest
      return (o, t :: extra)
  | .divider :: rest =>
    match o.expression, rest with
    | none, [] => .ok (o, [])
    | none, w :: rest => .ok ({ o with expression := some w.text }, rest.map Word.text)
    | some _, rest => .ok (o, "--" :: rest.map Word.text)
  | .unknown t :: rest => do
    let (o, extra) ← ofWords o rest
    return (o, t :: extra)
  | .option s byLetter attached :: rest => do
    let cluster ← Cluster.ofOption s byLetter attached
    match cluster.lacking, rest with
    | none, rest =>
      let o ← cluster.settings.foldlM Options.set o
      ofWords o rest
    | some s, .argument v :: rest =>
      let o ← (cluster.settings ++ [(s, v)]).foldlM Options.set o
      ofWords o rest
    | some s, _ => throw (s.misuse "expected one argument")

/-- What a command line asks for. -/
def Options.parse (texts : List String) : Except Exit Options := do
  let words ← Word.ofTexts texts
  let (o, extra) ← Options.initial.ofWords words
  if extra = [] then return o
  else throw (.misuse ("unrecognized arguments: " ++ " ".intercalate extra))

/-! ## Explanations -/

/-- The form of a command line. -/
def usage : String := "usage: calc [-h] [-D NAME=VALUE] [-f] [-p N] [-v] [expression]\n"

/-- The explanation of all options. -/
def helpText : String :=
  usage ++ "
Evaluate algebraic expressions.

positional arguments:
  expression            try \"(1 + 2) * 3\" for example. Omit to read from
                        standard input.

options:
  -h, --help            show this help message and exit
  -D NAME=VALUE, --define NAME=VALUE
                        Define a variable. May be repeated.
  -f, --float           Always answer in floating point.
  -p N, --places N      Round floating-point answers to N decimal places.
  -v, --verbose         Narrate each phase of evaluation on standard error.
"

/-- What is said of a misuse. -/
def misuseText (message : String) : String := usage ++ "calc: error: " ++ message ++ "\n"

end Reckon.CommandLine
