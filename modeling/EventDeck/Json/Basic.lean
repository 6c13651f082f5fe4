import EventDeck.Decimal.Notation

/-!
# JSON values

Numbers without a fraction or an exponent are integers of any size, the others are doubles.  The
fields of an object keep the order in which they were first written; a field that is written again
keeps its place and takes the new value.
-/

namespace EventDeck

/-- A JSON value. -/
inductive Json
  | null
  | bool (b : Bool)
  | int (n : Int)
  | float (x : Float)
  | string (s : String)
  | array (items : List Json)
  | object (fields : List (String × Json))
deriving Inhabited

namespace Json

/-- The fields of an object after one more field has been written. -/
def setField (key : String) (value : Json) : List (String × Json) → List (String × Json)
  | [] => [(key, value)]
  | field :: fields =>
    if field.1 = key then (key, value) :: fields else field :: setField key value fields

/-- The value of a field of an object. -/
def field? (json : Json) (key : String) : Option Json :=
  match json with
  | object fields => fields.lookup key
  | _ => none

/-! ## Writing -/

/-- One character of a written string: quotes, backslashes and control characters are escaped. -/
def escapedChar (c : Char) : String :=
  if c = '"' then "\\\""
  else if c = '\\' then "\\\\"
  else if c = '\n' then "\\n"
  else if c = '\r' then "\\r"
  else if c = '\t' then "\\t"
  else if c.toNat < 32 then
    let digits := Nat.toDigits 16 c.toNat
    "\\u" ++ String.ofList (List.replicate (4 - digits.length) '0' ++ digits)
  else c.toString

/-- A text as a JSON string, after what has been written before. -/
def writeString (written text : String) : String :=
  (text.toList.foldl (fun out c => out ++ escapedChar c) (written.push '"')).push '"'

/-- A number as JSON text.  There are words for the numbers that the format lacks. -/
def numberText (x : Float) : String :=
  if x.isNaN then "NaN"
  else if x.isInf then if x < 0.0 then "-Infinity" else "Infinity"
  else Decimal.text x

mutual

/-- A value as JSON text, after what has been written before. -/
def writeAfter (written : String) : Json → String
  | null => written ++ "null"
  | bool b => written ++ if b then "true" else "false"
  | int n => written ++ Decimal.integerText n
  | float x => written ++ numberText x
  | string s => writeString written s
  | array items => (writeItems (written.push '[') true items).push ']'
  | object fields => (writeFields (written.push '\x7b') true fields).push '\x7d'

/-- The items of an array, with commas between them. -/
def writeItems (written : String) (first : Bool) : List Json → String
  | [] => written
  | item :: items =>
    writeItems (writeAfter (if first then written else written.push ',') item) false items

/-- The fields of an object, with commas between them. -/
def writeFields (written : String) (first : Bool) : List (String × Json) → String
  | [] => written
  | (key, value) :: fields =>
    writeFields
      (writeAfter ((writeString (if first then written else written.push ',') key).push ':') value)
      false fields

end

/-- A value as JSON text on one line. -/
def write (json : Json) : String :=
  writeAfter "" json

/-! ## Numbers without a notation -/

mutual

/-- A value in which the numbers that JSON has no notation for are null. -/
def finite : Json → Json
  | float x => if x.isFinite then float x else null
  | array items => array (finiteItems items)
  | object fields => object (finiteFields fields)
  | json => json

/-- Some values in which the numbers that JSON has no notation for are null. -/
def finiteItems : List Json → List Json
  | [] => []
  | item :: items => finite item :: finiteItems items

/-- Some fields in which the numbers that JSON has no notation for are null. -/
def finiteFields : List (String × Json) → List (String × Json)
  | [] => []
  | (key, value) :: fields => (key, finite value) :: finiteFields fields

end

end Json

end EventDeck
