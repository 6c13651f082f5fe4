import EventDeck.Decimal.Reader

/-!
# Options

The arguments of a command are words and options.  An option begins with a hyphen; a long one may be
shortened as long as only one option can be meant, and a value may be joined to it by an equals
sign.  Negative numbers and texts with spaces are words, and so is everything behind a double
hyphen.
-/

namespace EventDeck.Terminal

open Text

/-- What an option does. -/
inductive FlagKind
  /-- Asks for help. -/
  | help
  /-- Takes a value of a certain form. -/
  | value (accepts : String → Bool)

/-- An option with its names. -/
structure Flag where
  names : List String
  kind : FlagKind

/-- The option for help, which every command has. -/
def Flag.help : Flag := ⟨["-h", "--help"], .help⟩

/-- Why arguments are not carried out. -/
inductive Stop
  /-- Help was asked for. -/
  | help
  /-- They make no sense. -/
  | refused
deriving DecidableEq, Repr

/-- An argument as it is understood. -/
inductive Piece
  | word (text : String)
  /-- A double hyphen. -/
  | separator
  /-- An option, with the value that is joined to it. -/
  | flag (flag : Flag) (value : Option String)
  /-- Something that looks like an option. -/
  | unknown

/-- Whether a text is a hyphen with digits behind it, among which there may be a point. -/
def isNegativeNumber (text : List Char) : Bool :=
  let text := if text.getLast? = some '\n' then text.dropLast else text
  match text with
  | '-' :: number =>
    match number.dropWhile isDecimalDigit with
    | [] => !number.isEmpty
    | '.' :: places => !places.isEmpty && places.all isDecimalDigit
    | _ => false
  | _ => false

/-- The option of a name. -/
def named? (flags : List Flag) (name : String) : Option Flag :=
  flags.find? (·.names.contains name)

/-- A short option with more characters behind it, which begin with other short options.  What
follows these is left alone unless it looks like a value. -/
def shortRun (flags : List Flag) (flag : Flag) (tail : List Char) : Piece :=
  let known (c : Char) : Bool := (named? flags (String.ofList ['-', c])).isSome
  match tail.dropWhile known with
  | '-' :: _ | '=' :: _ => .flag flag (some (String.ofList tail))
  | _ => .flag flag none

/-- The options that a text with a hyphen in front may mean: all long ones that begin so, or a short
one with more behind it. -/
def candidates (flags : List Flag) (text : List Char) : List Piece :=
  if text.take 2 = ['-', '-'] then
    let (name, value) := match cut ['='] text with
      | some (name, value) => (name, some (String.ofList value))
      | none => (text, none)
    (flags.filter fun flag => flag.names.any fun other => name.isPrefixOf other.toList).map
      (.flag · value)
  else (named? flags (String.ofList (text.take 2))).toList.map (shortRun flags · (text.drop 2))

/-- An option with its full name and a value joined to it by an equals sign. -/
def withValue? (flags : List Flag) (text : List Char) : Option Piece :=
  (cut ['='] text).bind fun (name, value) =>
    (named? flags (String.ofList name)).map (.flag · (some (String.ofList value)))

/-- Understands an argument with a hyphen in front that is no name of an option. -/
def classifyOther (flags : List Flag) (text : List Char) : Except Stop Piece :=
  match withValue? flags text with
  | some piece => .ok piece
  | none =>
    match candidates flags text with
    | [piece] => .ok piece
    | _ :: _ => .error .refused
    | [] =>
      .ok (if isNegativeNumber text || text.contains ' ' then .word (String.ofList text)
        else .unknown)

/-- Understands an argument. -/
def classify (flags : List Flag) (argument : String) : Except Stop Piece :=
  match argument.toList with
  | '-' :: c :: rest =>
    match named? flags argument with
    | some flag => .ok (.flag flag none)
    | none => classifyOther flags ('-' :: c :: rest)
  | _ => .ok (.word argument)

/-- Understands all arguments. -/
def classifyAll (flags : List Flag) : List String → Except Stop (List Piece)
  | [] => .ok []
  | argument :: arguments =>
    if argument = "--" then .ok (.separator :: arguments.map .word)
    else do return (← classify flags argument) :: (← classifyAll flags arguments)

/-- What an option means that stands before other arguments: its value, and what is left. -/
def takeValue (flag : Flag) (value : Option String) (rest : List Piece) :
    Except Stop (String × List Piece) :=
  match flag.kind, value, rest with
  | .help, none, _ => .error .help
  | .help, some _, _ => .error .refused
  | .value accepts, some value, rest =>
    if accepts value then .ok (value, rest) else .error .refused
  | .value accepts, none, .word value :: rest =>
    if accepts value then .ok (value, rest) else .error .refused
  | .value _, none, _ => .error .refused

theorem length_le_of_takeValue {flag : Flag} {value : Option String} {rest : List Piece}
    {result : String × List Piece} (h : takeValue flag value rest = .ok result) :
    result.2.length ≤ rest.length := by
  unfold takeValue at h
  split at h
  · cases h
  · cases h
  · split at h
    · cases h; exact Nat.le_refl _
    · cases h
  · split at h
    · cases h; simp
    · cases h
  · cases h

end EventDeck.Terminal
