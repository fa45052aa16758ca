/-!
# Terminal styles

Colours of a terminal and the palettes of the themes. A style is a colour, bold or not, and `paint`
puts the escape sequences of a style around a text.
-/

namespace RecordQuery

/-- A colour, with the number that a terminal knows it by. -/
inductive TerminalColor where
  | black
  | red
  | green
  | yellow
  | blue
  | purple
  | white
  | lightGreen
  | lightYellow
  | lightBlue
  | lightMagenta
  | lightCyan
  deriving DecidableEq, Repr

/-- The number of a colour of the foreground. -/
def TerminalColor.code : TerminalColor → Nat
  | .black => 30
  | .red => 31
  | .green => 32
  | .yellow => 33
  | .blue => 34
  | .purple => 35
  | .white => 37
  | .lightGreen => 92
  | .lightYellow => 93
  | .lightBlue => 94
  | .lightMagenta => 95
  | .lightCyan => 96

/-- A colour, bold or not. -/
structure TerminalStyle where
  color : TerminalColor
  bold : Bool := false
  deriving DecidableEq, Repr

/-- The text in a style. -/
def TerminalStyle.paint (style : TerminalStyle) (text : String) : String :=
  "\x1b[" ++ (if style.bold then "1;" else "") ++ toString style.color.code ++ "m" ++ text ++
    "\x1b[0m"

/-- The styles of the parts of a report. -/
structure Palette where
  heading : TerminalStyle
  key : TerminalStyle
  value : TerminalStyle
  bullet : TerminalStyle
  keyword : TerminalStyle
  placeholder : TerminalStyle
  info : TerminalStyle
  success : TerminalStyle
  warning : TerminalStyle
  deriving DecidableEq, Repr

/-- Styles on a dark ground. -/
def Palette.dark : Palette where
  heading := ⟨.purple, true⟩
  key := ⟨.lightBlue, true⟩
  value := ⟨.white, false⟩
  bullet := ⟨.lightBlue, false⟩
  keyword := ⟨.lightMagenta, true⟩
  placeholder := ⟨.lightYellow, false⟩
  info := ⟨.lightCyan, false⟩
  success := ⟨.lightGreen, true⟩
  warning := ⟨.yellow, true⟩

/-- Styles on a light ground. -/
def Palette.light : Palette where
  heading := ⟨.blue, true⟩
  key := ⟨.black, true⟩
  value := ⟨.black, false⟩
  bullet := ⟨.blue, false⟩
  keyword := ⟨.purple, true⟩
  placeholder := ⟨.red, false⟩
  info := ⟨.purple, false⟩
  success := ⟨.green, true⟩
  warning := ⟨.red, true⟩

/-- The themes of a report. -/
inductive Theme where
  | auto
  | light
  | dark
  /-- Without colours. -/
  | plain
  deriving DecidableEq, Repr, Inhabited

namespace Theme

/-- The names of the themes with their meaning. -/
def names : List (String × Theme) :=
  [("auto", .auto), ("light", .light), ("dark", .dark), ("plain", .plain)]

/-- The palette of a theme, if it has colours. -/
def palette? : Theme → Option Palette
  | .auto | .dark => some .dark
  | .light => some .light
  | .plain => none

end Theme

end RecordQuery
