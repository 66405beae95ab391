import SymbolAtlas.Number.Radix
import SymbolAtlas.Settings.Value
import SymbolAtlas.Settings.Yaml.Tag
import SymbolAtlas.Text.Base64
import SymbolAtlas.Text.Lower
import SymbolAtlas.Text.Quoted

/-!
# Values of scalars

The tag of a scalar says how its text is read. A tag that is written out may stand before a text
that it does not fit, and a text that has the form of a number or of a date may still be none.
-/

namespace SymbolAtlas.Yaml

/-- Why a node has no value. -/
inductive ValueError where
  /-- The tag means nothing, or nothing for such a node. -/
  | noMeaning
  /-- A key is a list or a mapping. -/
  | compositeKey
  /-- What is to be merged is neither a mapping nor a list of mappings. -/
  | notMergeable
  /-- A node has itself among its parts. -/
  | cyclic
  | notTruth (text : String)
  | noDigits
  | notInteger (base : Nat) (text : String) (e : RadixError)
  | notDecimal (text : String)
  /-- A number in base 60 has too many digits. -/
  | longDecimal
  | notBase64
  | notMoment
  /-- A moment has to be written as a scalar. -/
  | compositeMoment
  | moment (e : MomentError)
  deriving DecidableEq, Repr

/-- The wording of an error. -/
def ValueError.message : ValueError → String
  | .noMeaning => "a node has a tag that does not fit"
  | .compositeKey => "a key is a list or a mapping"
  | .notMergeable => "what is to be merged is no mapping"
  | .cyclic => "maximum recursion depth exceeded"
  | .notTruth text => quotedText text
  | .noDigits => "string index out of range"
  | .notInteger base text e => e.message base text
  | .notDecimal text => "could not convert string to float: " ++ quotedText text
  | .longDecimal => "int too large to convert to float"
  | .notBase64 => "bytes are not in base 64"
  | .notMoment => "a moment has another form"
  | .compositeMoment => "expected string or bytes-like object, got 'list'"
  | .moment e => e.message

/-- The truth value of a word. -/
def truthOf (t : Text) : Except ValueError Bool :=
  let word := String.ofList (Text.lower t)
  if ["yes", "true", "on"].contains word then .ok true
  else if ["no", "false", "off"].contains word then .ok false
  else .error (.notTruth word)

/-- The text without underscores. -/
def joined (t : Text) : Text := t.filter (· != '_')

/-- The integer that a text stands for in some base. -/
def integerIn (base : Nat) (t : Text) : Except ValueError Int :=
  (Radix.integer base t).mapError (.notInteger base (String.ofList t))

/-- The number that digits of base 60 stand for. -/
def sixty (parts : List Int) : Int := parts.foldl (fun n p => n * 60 + p) 0

/-- The integer that a text without a sign stands for. -/
def unsignedInteger (t : Text) : Except ValueError Int :=
  match t with
  | [] => .error .noDigits
  | ['0'] => .ok 0
  | '0' :: 'b' :: r => integerIn 2 r
  | '0' :: 'x' :: r => integerIn 16 r
  | '0' :: _ => integerIn 8 t
  | _ =>
    if t.contains ':' then ((t.splitOn ':').mapM (integerIn 10)).map sixty else integerIn 10 t

/-- The integer that a text stands for. -/
def integerOfScalar (t : Text) : Except ValueError Int :=
  let (negative, body) := Radix.signed (joined t)
  (unsignedInteger body).map fun n => if negative then -n else n

/-- The binary number that a text in decimal notation stands for. -/
def decimalIn (t : Text) : Except ValueError Binary :=
  match Radix.decimal? t with
  | some b => .ok b
  | none => .error (.notDecimal (String.ofList t))

/-- The number that digits of base 60 stand for, last digit first. A unit that is itself infinite as
a binary number has no product with a digit. -/
def sixtySum (unit : Nat) (sum : Binary) : List Binary → Except ValueError Binary
  | [] => .ok sum
  | d :: rest =>
    match Binary.ofInt unit with
    | .finite m e => sixtySum (unit * 60) (sum.add (d.mul (.finite m e))) rest
    | _ => .error .longDecimal

/-- The binary number that a text stands for. -/
def decimalOfScalar (t : Text) : Except ValueError Binary :=
  let text := Text.lower (joined t)
  let (negative, body) := Radix.signed text
  let magnitude : Except ValueError Binary :=
    if text = [] then .error .noDigits
    else if body = ".inf".toList then .ok (.infinite false)
    else if body = ".nan".toList then .ok .undefined
    else if body.contains ':' then
      match (body.splitOn ':').mapM decimalIn with
      | .error e => .error e
      | .ok parts => sixtySum 1 (.finite 0 0) parts.reverse
    else decimalIn body
  magnitude.map fun b => if negative then b.neg else b

/-- The bytes that a text stands for. -/
def bytesOfScalar (t : Text) : Except ValueError (List UInt8) :=
  match if t.all (·.toNat < 128) then base64Bytes? t else none with
  | some bytes => .ok bytes
  | none => .error .notBase64

/-- The moment that a text stands for, which has to be in the calendar. -/
def momentOfScalar (t : Text) : Except ValueError Moment :=
  match Moment.ofText? 1 (withoutLastBreak t) with
  | none => .error .notMoment
  | some m =>
    match m.error? with
    | some e => .error (.moment e)
    | none => .ok m

/-- Whether a tag is one of scalars. -/
def Tag.isScalar : Tag → Bool
  | .null | .truth | .integer | .decimal | .moment | .text | .binary => true
  | .merge | .default | .sequence | .mapping | .set | .pairs | .unknown => false

/-- The value of a scalar. -/
def scalarOf (tag : Tag) (s : String) : Except ValueError Scalar :=
  let t := s.toList
  match tag with
  | .null => .ok .null
  | .truth => (truthOf t).map .bool
  | .integer => (integerOfScalar t).map .int
  | .decimal => (decimalOfScalar t).map .binary
  | .moment => (momentOfScalar t).map .moment
  | .text => .ok (.text s)
  | .binary => (bytesOfScalar t).map .bytes
  | .merge | .default | .sequence | .mapping | .set | .pairs | .unknown => .error .noMeaning

end SymbolAtlas.Yaml
