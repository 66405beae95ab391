import SymbolAtlas.Entries
import SymbolAtlas.Settings.Moment
import SymbolAtlas.Text.Word

/-!
# Values of settings

Settings come as trees of scalars, lists and mappings. The keys of mappings are scalars, and
numbers and truth values that are equal are the same key. Two trees of mappings are merged key by
key; where one of the two values is not a mapping the later one counts as a whole. References to
variables, written `${NAME}`, are expanded in texts but not in keys, and what is put in for them
is not looked at again.

A file may also give sets and lists of pairs. No setting is one of these, so nothing is expanded in
them. And a value may contain itself, which is fine only where nothing has to be expanded in it; a
mapping that comes over such a value is merged with the mapping that stands there.
-/

namespace SymbolAtlas

/-- A value without parts. -/
inductive Scalar where
  | null
  | bool (b : Bool)
  | int (n : Int)
  | binary (b : Binary)
  | moment (m : Moment)
  | text (s : String)
  | bytes (b : List UInt8)
  deriving DecidableEq, Repr

/-- A tree of scalars, lists and mappings. The keys of a mapping are kept in order. -/
inductive Value where
  | scalar (s : Scalar)
  | list (items : List Value)
  | map (fields : List (Scalar × Value))
  | set (keys : List Scalar)
  /-- Keys, which need not be scalars, and values in order. -/
  | pairs (entries : List (Value × Value))
  /-- The collection around this place, with as many others between as given. -/
  | cycle (between : Nat)
  deriving Inhabited, Repr

/-- The keys and values of a mapping. -/
abbrev Fields := List (Scalar × Value)

/-! ### Keys -/

/-- What a key is compared by. -/
inductive KeyForm where
  | number (value : Rat)
  | other (key : Scalar)
  deriving DecidableEq, Repr

/-- Numbers and truth values are compared by what they amount to, all else as it is. -/
def Scalar.form : Scalar → KeyForm
  | .bool b => .number (if b then 1 else 0)
  | .int n => .number n
  | .binary (.finite m e) => .number (m * (2 : Rat) ^ e)
  | k => .other k

/-- Whether two keys are the same. -/
def sameKey (a b : Scalar) : Bool := a.form = b.form

section

variable {α : Type}

/-- The value of a key. -/
def field? (k : Scalar) : List (Scalar × α) → Option α
  | [] => none
  | f :: rest => if sameKey f.1 k then some f.2 else field? k rest

/-- Gives a key a value; a key that is there keeps its form and its place. -/
def putField (k : Scalar) (v : α) : List (Scalar × α) → List (Scalar × α)
  | [] => [(k, v)]
  | f :: rest => if sameKey f.1 k then (f.1, v) :: rest else f :: putField k v rest

end

/-! ### Merging -/

namespace Value

mutual

/-- What a key has after merging, given what it had before and what the later mapping says. Of the
mappings around the key, innermost first, each is as it was before. -/
def mergeValue (around : List Fields) (before : Option Value) : Value → Value
  | .map fields =>
    match before with
    | some (.map base) => .map (mergeInto (base :: around) base fields)
    | some (.cycle between) =>
      .map (mergeInto (around.drop between) (around.getD between []) fields)
    | _ => .map fields
  | v => v
termination_by structural v => v

/-- Merges fields into a mapping one after the other, with the mapping as it was before as the first
of those around. -/
def mergeInto (around : List Fields) (base : Fields) : Fields → Fields
  | [] => base
  | (k, v) :: rest =>
    mergeInto around (putField k (mergeValue around (field? k base) v) base) rest
termination_by structural fields => fields

end

/-- Merges two mappings; a key that both have keeps its place in the first. -/
def mergeFields (base fields : Fields) : Fields := mergeInto [base] base fields

end Value

/-! ### References -/

/-- The variables that can be referred to. -/
abbrev Variables := Entries String String

/-- A reference at the start of a text: the name of the variable and the text after it. -/
def reference? (t : Text) : Option (Text × Text) :=
  match t with
  | '$' :: '{' :: rest =>
    let name := rest.takeWhile isWord
    match rest.drop name.length with
    | '}' :: after => if name = [] then none else some (name, after)
    | _ => none
  | _ => none

/-- The text with each reference to a variable replaced, where the variable is set. The first
`skip` characters belong to a reference already replaced. -/
def expandFrom (env : Variables) (skip : Nat) : Text → Text
  | [] => []
  | c :: t =>
    match skip with
    | n + 1 => expandFrom env n t
    | 0 =>
      match reference? (c :: t) with
      | none => c :: expandFrom env 0 t
      | some (name, _) =>
        match env.get? (String.ofList name) with
        | none => c :: expandFrom env 0 t
        | some value => value.toList ++ expandFrom env (name.length + 2) t

/-- The names of all variables that a text refers to. -/
def references : Text → List String
  | [] => []
  | c :: t =>
    match reference? (c :: t) with
    | some (name, _) => String.ofList name :: references t
    | none => references t

/-- The text with all references to set variables replaced. -/
def expandText (env : Variables) (s : String) : String :=
  String.ofList (expandFrom env 0 s.toList)

namespace Value

mutual

/-- The tree with references expanded in all its texts. -/
def expand (env : Variables) : Value → Value
  | .scalar (.text s) => .scalar (.text (expandText env s))
  | .list items => .list (expandItems env items)
  | .map fields => .map (expandFields env fields)
  | v => v
termination_by structural v => v

/-- The items of a list with references expanded. -/
def expandItems (env : Variables) : List Value → List Value
  | [] => []
  | v :: rest => expand env v :: expandItems env rest
termination_by structural items => items

/-- The values of a mapping with references expanded; keys stay as they are. -/
def expandFields (env : Variables) : Fields → Fields
  | [] => []
  | (k, v) :: rest => (k, expand env v) :: expandFields env rest
termination_by structural fields => fields

end

mutual

/-- Whether a value contains itself where its texts are expanded. -/
def isCyclic : Value → Bool
  | .cycle _ => true
  | .list items => anyCyclic items
  | .map fields => fieldsCyclic fields
  | _ => false
termination_by structural v => v

/-- Whether an item of a list contains itself. -/
def anyCyclic : List Value → Bool
  | [] => false
  | v :: rest => isCyclic v || anyCyclic rest
termination_by structural items => items

/-- Whether a value of a mapping contains itself. -/
def fieldsCyclic : Fields → Bool
  | [] => false
  | (_, v) :: rest => isCyclic v || fieldsCyclic rest
termination_by structural fields => fields

end

end Value

end SymbolAtlas
