import EventDeck.Decimal.Floor
import EventDeck.Decimal.Reader
import EventDeck.Json.Basic

/-!
# Shapes of JSON values

A shape reads a JSON value as a value of the domain.  It is lenient where the intent is clear:
numbers may be given as texts or truth values, truth values as numbers or words.  A value that does
not fit is refused with every place at which it does not, in the order of the fields.
-/

namespace EventDeck

/-- A step on the way to a place inside a JSON value. -/
inductive PathStep
  | field (name : String)
  | item (index : Nat)
deriving DecidableEq, Repr

/-- What is wrong at a place. -/
inductive Misfit
  | missing | stringType | listType | modelType | attributesType
  | floatType | floatParsing
  | intType | intParsing | intParsingSize | intFromFloat | finiteNumber
  | boolType | boolParsing
  | jsonInvalid
deriving DecidableEq, Repr

/-- The word for what is wrong. -/
def Misfit.word : Misfit → String
  | missing => "missing"
  | stringType => "string_type"
  | listType => "list_type"
  | modelType => "model_type"
  | attributesType => "model_attributes_type"
  | floatType => "float_type"
  | floatParsing => "float_parsing"
  | intType => "int_type"
  | intParsing => "int_parsing"
  | intParsingSize => "int_parsing_size"
  | intFromFloat => "int_from_float"
  | finiteNumber => "finite_number"
  | boolType => "bool_type"
  | boolParsing => "bool_parsing"
  | jsonInvalid => "json_invalid"

/-- A place that does not fit. -/
structure ShapeError where
  path : List PathStep
  misfit : Misfit
deriving DecidableEq, Repr

/-- A step as JSON. -/
def PathStep.toJson : PathStep → Json
  | field name => .string name
  | item index => .int index

/-- A place that does not fit, as JSON. -/
def ShapeError.toJson (e : ShapeError) : Json :=
  .object [("loc", .array (e.path.map PathStep.toJson)), ("type", .string e.misfit.word)]

/-- A value that was read, or all places that do not fit. -/
structure Shaped (α : Type) where
  result : Except (List ShapeError) α

namespace Shaped

/-- A value that fits. -/
def fits {α : Type} (a : α) : Shaped α := ⟨.ok a⟩

/-- A value that does not fit as a whole. -/
def fails {α : Type} (misfit : Misfit) : Shaped α := ⟨.error [⟨[], misfit⟩]⟩

/-- The errors of both parts are collected, those of the first part first. -/
instance : Applicative Shaped where
  pure := fits
  seq f a :=
    match f.result, (a ()).result with
    | .ok f, .ok a => ⟨.ok (f a)⟩
    | .ok _, .error e => ⟨.error e⟩
    | .error e, .ok _ => ⟨.error e⟩
    | .error e, .error e' => ⟨.error (e ++ e')⟩

/-- A value read at a step further inside. -/
def at_ {α : Type} (step : PathStep) (shaped : Shaped α) : Shaped α :=
  ⟨shaped.result.mapError fun errors => errors.map fun e => { e with path := step :: e.path }⟩

end Shaped

/-- A way of reading a JSON value. -/
abbrev Shape (α : Type) := Json → Shaped α

namespace Shape

open Shaped Decimal Text

/-! ## Plain values -/

/-- A text. -/
def string : Shape String
  | .string s => fits s
  | _ => fails .stringType

/-- Joins groups of digits that single underscores divide. -/
def joinGroups? (text : List Char) : Option (List Char) :=
  if text.head? = some '_' || text.getLast? = some '_' || !text.contains '_' ||
    (cut ['_', '_'] text).isSome then none
  else some (text.filter (· != '_'))

/-- A number written as a text. -/
def floatText? (text : List Char) : Option Float :=
  (readPlain? (trimBy isWhiteSpace text)).or ((joinGroups? text).bind readPlain?)

/-- A number. -/
def float : Shape Float
  | .float x => fits x
  | .int n =>
    match Decimal.ofInt n with
    | .ok x => fits x
    | .error _ => fails .floatType
  | .bool b => fits (if b then 1.0 else 0.0)
  | .string s =>
    match floatText? s.toList with
    | some x => fits x
    | none => fails .floatParsing
  | _ => fails .floatType

/-- The digits of a whole number without zeros in front; a single underscore may stand between two
digits, and an underscore among zeros does not matter. -/
def dropZeros? (text : List Char) : Option (List Char) :=
  match text with
  | '0' :: rest =>
    let zeros := rest.takeWhile fun c => c = '0' || c = '_'
    match rest.drop zeros.length with
    | [] => some [(zeros.getLast?).getD '0']
    | '.' :: more => some ((zeros.getLast?).getD '0' :: '.' :: more)
    | c :: more => if isPlainDigit c then some (c :: more) else none
  | c :: _ => if isPlainDigit c then some text else none
  | [] => none

/-- The digits before a point that only zeros follow. -/
def dropPlaces? (text : List Char) : Option (List Char) :=
  match cut ['.'] text with
  | some (whole, places) => if places.all (· = '0') then some whole else none
  | none => some text

/-- A whole number written as a text: a sign, digits, and a point with zeros behind it. -/
def intText? (text : List Char) : Option Int := do
  let (negative, unsigned) := takeSign (trimBy isWhiteSpace text)
  let whole ← dropPlaces? (← dropZeros? unsigned)
  let digits := (joinGroups? whole).getD whole
  if digits.isEmpty || !digits.all isPlainDigit then none
  else some (if negative then -(natOfDigits digits : Int) else natOfDigits digits)

/-- Whole numbers that are taken from doubles or for truth values are below this in magnitude. -/
def wordLimit : Nat := 0x8000000000000000

/-- A double that is taken for a whole number. -/
def intOfFloat (x : Float) : Except Misfit Int :=
  if x.isNaN || x.isInf then .error .finiteNumber
  else match whole? x with
    | none => .error .intFromFloat
    | some n => if n.natAbs < wordLimit then .ok n else .error .intParsingSize

/-- The most characters that a whole number written as a text may have. -/
def intTextLimit : Nat := 4300

/-- A whole number. -/
def int : Shape Int
  | .int n => fits n
  | .bool b => fits (if b then 1 else 0)
  | .float x =>
    match intOfFloat x with
    | .ok n => fits n
    | .error misfit => fails misfit
  | .string s =>
    match intText? s.toList with
    | some n =>
      if intTextLimit < (trimBy isWhiteSpace s.toList).length then fails .intParsingSize
      else fits n
    | none => fails .intParsing
  | _ => fails .intType

/-- The words for true. -/
def trueWords : List String := ["1", "on", "t", "true", "y", "yes"]

/-- The words for false. -/
def falseWords : List String := ["0", "off", "f", "false", "n", "no"]

/-- A truth value given as a whole number. -/
def boolOfInt (n : Int) : Shaped Bool :=
  if n = 0 then fits false else if n = 1 then fits true else fails .boolParsing

/-- A truth value. -/
def bool : Shape Bool
  | .bool b => fits b
  | .int n => if -(wordLimit : Int) ≤ n && n < wordLimit then boolOfInt n else fails .boolType
  | .float x =>
    match intOfFloat x with
    | .ok n => boolOfInt n
    | .error _ => fails .boolType
  | .string s =>
    let word := s.map Char.toLower
    if trueWords.contains word then fits true
    else if falseWords.contains word then fits false
    else fails .boolParsing
  | _ => fails .boolType

/-! ## Composite values -/

/-- The items of a list, from a place on. -/
def items {α : Type} (shape : Shape α) (index : Nat) : List Json → Shaped (List α)
  | [] => fits []
  | json :: rest =>
    List.cons <$> (shape json).at_ (.item index) <*> items shape (index + 1) rest

/-- A list. -/
def list {α : Type} (shape : Shape α) : Shape (List α)
  | .array jsons => items shape 0 jsons
  | _ => fails .listType

/-- Nothing, or a value. -/
def nullable {α : Type} (shape : Shape α) : Shape (Option α)
  | .null => fits none
  | json => some <$> shape json

/-- The first of some keys that an object has, with its value. -/
def firstField? (keys : List String) (json : Json) : Option (String × Json) :=
  keys.findSome? fun key => (json.field? key).map (key, ·)

/-- A field that may be left out; the first of its keys that is there counts. -/
def optionalField {α : Type} (keys : List String) (shape : Shape α) (default : α) : Shape α :=
  fun json =>
    match firstField? keys json with
    | some (key, value) => (shape value).at_ (.field key)
    | none => fits default

/-- A field that has to be there. -/
def field {α : Type} (key : String) (shape : Shape α) : Shape α := fun json =>
  match json.field? key with
  | some value => (shape value).at_ (.field key)
  | none => (fails .missing : Shaped α).at_ (.field key)

/-- An object; anything else is refused as said. -/
def object {α : Type} (refusal : Misfit) (fields : Shape α) : Shape α
  | .object members => fields (.object members)
  | _ => fails refusal

end Shape

end EventDeck
