import Lightpath.Network.ConnectPoint

/-!
# Arguments — the words after the name of a command

A `CommandForm` says which options and positional arguments a command takes. `CommandForm.scan` reads
words from left to right and stops at the first one that does not fit, or that asks for help.

Options are written `--name`, with a value `--name value` or `--name=value`. A separate value cannot
start with a dash, a lone dash apart. After the word `--` every word is positional.
-/

namespace Lightpath

/-- What a value may be. -/
inductive ArgKind where
  /-- A port, as `device/port`. -/
  | port
  /-- An unsigned number of 64 bits. -/
  | natural
  /-- A signed number of 32 bits. -/
  | integer
  /-- Any word. -/
  | word
deriving DecidableEq, Repr

/-- A value of an argument. -/
inductive ArgValue where
  | port (cp : ConnectPoint)
  | natural (n : Nat)
  | integer (n : Int)
  | word (s : String)
deriving DecidableEq, Repr

/-- The value of a word of a kind. -/
def ArgKind.read? : ArgKind → String → Option ArgValue
  | .port, s => (ConnectPoint.read? s).map .port
  | .natural, s => (Text.natural? s).map .natural
  | .integer, s => (Text.integer? 32 s).map .integer
  | .word, s => some (.word s)

/-- How an option is used. -/
inductive OptionForm where
  /-- It takes no value and is given at most once. -/
  | flag
  /-- It takes one value and is given at most once. -/
  | single (kind : ArgKind)
  /-- It takes every value up to the next option and may be given again. -/
  | many (kind : ArgKind)
deriving DecidableEq, Repr

/-- What a command takes. -/
structure CommandForm where
  /-- The options by their names without dashes. -/
  options : List (String × OptionForm)
  /-- The positional arguments that have to be there. -/
  positionals : List ArgKind := []
  /-- Further positional arguments, of which there has to be at least one. -/
  rest : Option ArgKind := none
deriving Repr

/-- What is wrong with the words of a command. -/
inductive UsageFault where
  | unknownCommand (word : String)
  | missingCommand
  | unknownOption (word : String)
  | unexpectedValue (option : String)
  | missingValue (option : String)
  | repeatedOption (option : String)
  | badValue (word : String)
  | unexpectedWord (word : String)
  | missingWord
  | conflictingOptions (a b : String)
  | missingChoice (a b : String)
deriving DecidableEq, Repr

namespace UsageFault

/-- What an operator reads. -/
def message : UsageFault → String
  | unknownCommand word => "unknown command '" ++ word ++ "'"
  | missingCommand => "a command is missing"
  | unknownOption word => "unknown option '" ++ word ++ "'"
  | unexpectedValue option => "option '--" ++ option ++ "' takes no value"
  | missingValue option => "option '--" ++ option ++ "' needs a value"
  | repeatedOption option => "option '--" ++ option ++ "' is given twice"
  | badValue word => "invalid value '" ++ word ++ "'"
  | unexpectedWord word => "unexpected argument '" ++ word ++ "'"
  | missingWord => "an argument is missing"
  | conflictingOptions a b => "options '--" ++ a ++ "' and '--" ++ b ++ "' exclude each other"
  | missingChoice a b => "one of '--" ++ a ++ "' and '--" ++ b ++ "' is needed"

end UsageFault

/-- Why the words of a command are not read to their end. -/
inductive Stop where
  | help
  | fault (f : UsageFault)
deriving DecidableEq, Repr

/-- What was read from the words of a command. -/
structure Arguments where
  /-- The flags that are set. -/
  flags : List String := []
  /-- The options that have values, with the values of each in order. -/
  values : List (String × List ArgValue) := []
  positionals : List ArgValue := []
deriving DecidableEq, Repr, Inhabited

namespace Arguments

/-- Whether a flag is set. -/
def has (a : Arguments) (flag : String) : Bool := a.flags.contains flag

/-- The values of an option in order. -/
def valuesOf (a : Arguments) (option : String) : List ArgValue :=
  (a.values.filter (fun v => v.1 == option)).flatMap (·.2)

/-- The port given to an option. -/
def port? (a : Arguments) (option : String) : Option ConnectPoint :=
  (a.valuesOf option).findSome? fun v => match v with
    | .port cp => some cp
    | _ => none

/-- The number given to an option. -/
def natural? (a : Arguments) (option : String) : Option Nat :=
  (a.valuesOf option).findSome? fun v => match v with
    | .natural n => some n
    | _ => none

/-- The words given to an option. -/
def wordsOf (a : Arguments) (option : String) : List String :=
  (a.valuesOf option).filterMap fun v => match v with
    | .word s => some s
    | _ => none

/-- Adds a value of an option. -/
def addValue (a : Arguments) (option : String) (v : ArgValue) : Arguments :=
  { a with values := a.values ++ [(option, [v])] }

end Arguments

/-- A word as the scanner sees it. -/
inductive Token where
  /-- The word after which all words are positional. -/
  | divider
  /-- An option by its name, with the value attached to it. -/
  | option (name : String) (attached : Option String)
  /-- Options of one letter. -/
  | letters (word : List Char)
  | value (word : String)
deriving DecidableEq, Repr

/-- How a word looks to the scanner. -/
def Token.ofWord (word : String) : Token :=
  match word.toList with
  | ['-', '-'] => .divider
  | '-' :: '-' :: body =>
    match body.dropWhile (· != '=') with
    | [] => .option (String.ofList body) none
    | _ :: attached =>
      .option (String.ofList (body.takeWhile (· != '='))) (some (String.ofList attached))
  | '-' :: c :: body => .letters (c :: body)
  | _ => .value word

namespace CommandForm

/-- A word that is checked against a kind. -/
def check (kind : ArgKind) (word : String) : Except Stop ArgValue :=
  match kind.read? word with
  | some v => .ok v
  | none => .error (.fault (.badValue word))

/-- The kind of the positional argument at a position. -/
def kindAt? (f : CommandForm) (i : Nat) : Option ArgKind :=
  match f.positionals[i]? with
  | some kind => some kind
  | none => f.rest

/-- Adds a positional word. -/
def addPositional (f : CommandForm) (a : Arguments) (word : String) : Except Stop Arguments :=
  match f.kindAt? a.positionals.length with
  | none => .error (.fault (.unexpectedWord word))
  | some kind => (check kind word).map fun v => { a with positionals := a.positionals ++ [v] }

/-- Adds a value of an option that takes values. -/
def addOption (a : Arguments) (option : String) (form : OptionForm) (word : String) :
    Except Stop Arguments :=
  match form with
  | .flag => .error (.fault (.unexpectedValue option))
  | .many kind => (check kind word).map (a.addValue option)
  | .single kind =>
    match check kind word with
    | .error stop => .error stop
    | .ok v =>
      if (a.valuesOf option).isEmpty then .ok (a.addValue option v)
      else .error (.fault (.repeatedOption option))

/-- Sets a flag. -/
def setFlag (a : Arguments) (flag : String) : Except Stop Arguments :=
  if a.has flag then .error (.fault (.repeatedOption flag))
  else .ok { a with flags := a.flags ++ [flag] }

/-- The form of an option of a command. -/
def option? (f : CommandForm) (name : String) : Option OptionForm :=
  (f.options.find? (fun o => o.1 == name)).map (·.2)

/-- The option that goes on to take values. -/
def openOption (name : String) : OptionForm → Option String
  | .many _ => some name
  | _ => none

/-- Reads words from left to right; `taking` is an option that takes further values. -/
def scan (f : CommandForm) (a : Arguments) (taking : Option String) :
    List String → Except Stop Arguments
  | [] => .ok a
  | word :: rest =>
    match Token.ofWord word with
    | .divider => rest.foldlM f.addPositional a
    | .letters (c :: _) => .error (if c = 'h' then .help else .fault (.unknownOption word))
    | .letters [] => .error (.fault (.unknownOption word))
    | .value word =>
      match taking.bind fun name => (f.option? name).map fun form => (name, form) with
      | some (name, form) =>
        match addOption a name form word with
        | .error stop => .error stop
        | .ok a => f.scan a taking rest
      | none =>
        match f.addPositional a word with
        | .error stop => .error stop
        | .ok a => f.scan a none rest
    | .option name attached =>
      match f.option? name, attached, rest with
      | none, some _, _ =>
        .error (.fault (if name = "help" then .unexpectedValue name else .unknownOption word))
      | none, none, _ => .error (if name = "help" then .help else .fault (.unknownOption word))
      | some form, some value, rest =>
        match addOption a name form value with
        | .error stop => .error stop
        | .ok a => f.scan a none rest
      | some .flag, none, rest =>
        match setFlag a name with
        | .error stop => .error stop
        | .ok a => f.scan a none rest
      | some _, none, [] => .error (.fault (.missingValue name))
      | some form, none, next :: rest =>
        match Token.ofWord next with
        | .value value =>
          match addOption a name form value with
          | .error stop => .error stop
          | .ok a => f.scan a (openOption name form) rest
        | _ => .error (.fault (.missingValue name))

/-- The number of positional arguments that have to be there. -/
def leastPositionals (f : CommandForm) : Nat := f.positionals.length + (if f.rest.isSome then 1 else 0)

/-- Reads the words of a command, which have to be complete. -/
def read (f : CommandForm) (words : List String) : Except Stop Arguments :=
  match f.scan {} none words with
  | .error stop => .error stop
  | .ok a =>
    if a.positionals.length < f.leastPositionals then .error (.fault .missingWord) else .ok a

end CommandForm

end Lightpath
