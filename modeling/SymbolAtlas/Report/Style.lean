import SymbolAtlas.Number.Radix
import SymbolAtlas.Text.Lower
import SymbolAtlas.Text.Word

/-!
# Styles

A style is written as words: attributes such as `bold`, with `not` before one to turn it off, a
colour, `on` with a colour for the background, and `link` with an address. Styles of the same
effect have one normal form, with the attributes in a fixed order and in full, then the colours,
then the link. What is no style keeps its own words as its name.
-/

namespace SymbolAtlas.Report

/-- The attributes that a style can have, in the order in which they are written. -/
def attributeNames : List String :=
  ["bold", "dim", "italic", "underline", "blink", "blink2", "reverse", "conceal", "strike",
    "underline2", "frame", "encircle", "overline"]

/-- The full names of attributes that have a short one. -/
def shortNames : List (String × String) :=
  [("d", "dim"), ("b", "bold"), ("i", "italic"), ("u", "underline"), ("r", "reverse"),
    ("c", "conceal"), ("s", "strike"), ("uu", "underline2"), ("o", "overline")]

/-- The attribute of a name. -/
def attribute? (name : String) : Option String :=
  (shortNames.lookup name).or (if attributeNames.contains name then some name else none)

/-- The names of colours, with spaces between them. -/
def colourNames : String :=
  "black red green yellow blue magenta cyan white bright_black bright_red bright_green " ++
  "bright_yellow bright_blue bright_magenta bright_cyan bright_white grey0 gray0 navy_blue " ++
  "dark_blue blue3 blue1 dark_green deep_sky_blue4 dodger_blue3 dodger_blue2 green4 " ++
  "spring_green4 turquoise4 deep_sky_blue3 dodger_blue1 green3 spring_green3 dark_cyan " ++
  "light_sea_green deep_sky_blue2 deep_sky_blue1 spring_green2 cyan3 dark_turquoise " ++
  "turquoise2 green1 spring_green1 medium_spring_green cyan2 cyan1 dark_red deep_pink4 " ++
  "purple4 purple3 blue_violet orange4 grey37 gray37 medium_purple4 slate_blue3 royal_blue1 " ++
  "chartreuse4 dark_sea_green4 pale_turquoise4 steel_blue steel_blue3 cornflower_blue " ++
  "chartreuse3 cadet_blue sky_blue3 steel_blue1 pale_green3 sea_green3 aquamarine3 " ++
  "medium_turquoise chartreuse2 sea_green2 sea_green1 aquamarine1 dark_slate_gray2 " ++
  "dark_magenta dark_violet purple light_pink4 plum4 medium_purple3 slate_blue1 yellow4 " ++
  "wheat4 grey53 gray53 light_slate_grey light_slate_gray medium_purple light_slate_blue " ++
  "dark_olive_green3 dark_sea_green light_sky_blue3 sky_blue2 dark_sea_green3 " ++
  "dark_slate_gray3 sky_blue1 chartreuse1 light_green pale_green1 dark_slate_gray1 red3 " ++
  "medium_violet_red magenta3 dark_orange3 indian_red hot_pink3 medium_orchid3 medium_orchid " ++
  "medium_purple2 dark_goldenrod light_salmon3 rosy_brown grey63 gray63 medium_purple1 gold3 " ++
  "dark_khaki navajo_white3 grey69 gray69 light_steel_blue3 light_steel_blue yellow3 " ++
  "dark_sea_green2 light_cyan3 light_sky_blue1 green_yellow dark_olive_green2 dark_sea_green1 " ++
  "pale_turquoise1 deep_pink3 magenta2 hot_pink2 orchid medium_orchid1 orange3 light_pink3 " ++
  "pink3 plum3 violet light_goldenrod3 tan misty_rose3 thistle3 plum2 khaki3 light_goldenrod2 " ++
  "light_yellow3 grey84 gray84 light_steel_blue1 yellow2 dark_olive_green1 honeydew2 " ++
  "light_cyan1 red1 deep_pink2 deep_pink1 magenta1 orange_red1 indian_red1 hot_pink " ++
  "dark_orange salmon1 light_coral pale_violet_red1 orchid2 orchid1 orange1 sandy_brown " ++
  "light_salmon1 light_pink1 pink1 plum1 gold1 navajo_white1 misty_rose1 thistle1 yellow1 " ++
  "light_goldenrod1 khaki1 wheat1 cornsilk1 grey100 gray100 grey3 gray3 grey7 gray7 grey11 " ++
  "gray11 grey15 gray15 grey19 gray19 grey23 gray23 grey27 gray27 grey30 gray30 grey35 gray35 " ++
  "grey39 gray39 grey42 gray42 grey46 gray46 grey50 gray50 grey54 gray54 grey58 gray58 grey62 " ++
  "gray62 grey66 gray66 grey70 gray70 grey74 gray74 grey78 gray78 grey82 gray82 grey85 gray85 " ++
  "grey89 gray89 grey93 gray93"

/-! ### Colours -/

/-- Why words are no style. -/
inductive StyleError where
  | unknown
  /-- A part of a colour that has to be a number is none. -/
  | number (part : Text) (e : RadixError)
  deriving DecidableEq, Repr

/-- What stands between a word with an opening bracket and a closing bracket at the end. -/
def bracketed? (word : String) (t : Text) : Option Text :=
  match (word.toList ++ ['(']).isPrefixOf? t with
  | some rest => if rest.getLast? = some ')' then some rest.dropLast else none
  | none => none

/-- Checks a colour of three parts for red, green and blue. -/
def mixedColour (parts : List Text) : Except StyleError Unit :=
  if parts.length ≠ 3 then .error .unknown
  else
    match parts.mapM fun p => (Radix.integer 10 p).mapError (.number p) with
    | .error e => .error e
    | .ok numbers => if numbers.all (· ≤ 255) then .ok () else .error .unknown

/-- Checks that a word in small letters is a colour: a name, six hexadecimal digits, a number or
three parts. -/
def checkColour (t : Text) : Except StyleError Unit :=
  if t = "default".toList || (colourNames.toList.splitOn ' ').contains t then .ok ()
  else
    match t with
    | '#' :: digits =>
      if digits.length = 6 && digits.all fun c => c.isDigit || ('a' ≤ c && c ≤ 'f') then .ok ()
      else .error .unknown
    | _ =>
      match bracketed? "color" t, bracketed? "rgb" t with
      | some n, _ =>
        if n ≠ [] && n.length ≤ 3 && n.all Char.isDigit && Radix.value 10 n ≤ 255 then .ok ()
        else .error .unknown
      | none, some inner =>
        if inner ≠ [] && inner.all fun c => (decimalDigit? c).isSome || c == ',' then
          mixedColour (inner.splitOn ',')
        else .error .unknown
      | none, none => .error .unknown

/-! ### Styles -/

/-- A style as it is written. -/
structure Style where
  /-- The attributes that are turned on or off. -/
  attributes : List (String × Bool)
  colour : Option Text
  background : Option Text
  link : Option Text
  deriving DecidableEq, Repr

/-- A style without effect. -/
def Style.plain : Style := ⟨[], none, none, none⟩

/-- A colour in small letters. -/
def colourOf (word : Text) : Except StyleError Text :=
  let name := Text.trim (Text.lower word)
  (checkColour name).map fun () => name

/-- Turns an attribute on or off. -/
def Style.set (s : Style) (name : String) (on : Bool) : Style :=
  { s with attributes := (name, on) :: s.attributes }

/-- Adds the effects of words to a style. -/
def Style.ofWords (s : Style) : List Text → Except StyleError Style
  | [] => .ok s
  | given :: rest =>
    let word := String.ofList (Text.lower given)
    if word = "on" then
      match rest with
      | [] => .error .unknown
      | colour :: rest =>
        match colourOf colour with
        | .error e => .error e
        | .ok name => Style.ofWords { s with background := some name } rest
    else if word = "not" then
      match rest with
      | [] => .error .unknown
      | name :: rest =>
        match attribute? (String.ofList name) with
        | none => .error .unknown
        | some a => Style.ofWords (s.set a false) rest
    else if word = "link" then
      match rest with
      | [] => .error .unknown
      | address :: rest => Style.ofWords { s with link := some address } rest
    else
      match attribute? word with
      | some a => Style.ofWords (s.set a true) rest
      | none =>
        match colourOf given with
        | .error e => .error e
        | .ok name => Style.ofWords { s with colour := some name } rest

/-- The words of a text. -/
def wordsOf (t : Text) : List Text := (t.splitOnP isBlank).filter fun w => w ≠ []

/-- The normal form of a style. -/
def Style.text (s : Style) : Text :=
  let attributes := attributeNames.filterMap fun a =>
    (s.attributes.lookup a).map fun on => (if on then a else "not " ++ a).toList
  let words := attributes ++ s.colour.toList ++
    (s.background.toList.flatMap fun c => ["on".toList, c]) ++
    (s.link.toList.flatMap fun l => ["link".toList, l])
  if words = [] then "none".toList else [' '].intercalate words

/-- The style that a text stands for. -/
def Style.ofText (t : Text) : Except StyleError Style :=
  let words := wordsOf t
  if words = ["none".toList] then .ok .plain else Style.plain.ofWords words

/-- The name under which a style is known: its normal form, or its own words in small letters. A
colour with a part that is no number has no name. -/
def styleName (t : Text) : Except StyleError Text :=
  match Style.ofText t with
  | .ok s => .ok s.text
  | .error .unknown => .ok (Text.lower (Text.trim t))
  | .error e => .error e

end SymbolAtlas.Report
