import RecordQuery.Terminal.Style
import RecordQuery.Text.Split

/-!
# Reports

The pieces of a report in text form: a statement with its keywords highlighted, a section of aligned
rows, a list, and lines of status. Each is a list of lines. A quiet report has no decorations, and
colours appear only with a palette.
-/

namespace RecordQuery

/-- How a report is decorated. -/
structure ReportStyle where
  /-- The colours, if there are any. -/
  palette : Option Palette
  quiet : Bool
  deriving Repr

namespace ReportStyle

/-- The style of a theme on a terminal or elsewhere. -/
def ofTheme (theme : Theme) (quiet terminal : Bool) : ReportStyle where
  palette := if terminal && !quiet then theme.palette? else none
  quiet := quiet

/-- The text in one of the styles of the palette. -/
def paint (style : ReportStyle) (part : Palette → TerminalStyle) (text : String) : String :=
  match style.palette with
  | none => text
  | some palette => (part palette).paint text

/-- The heading of a section or list. -/
def heading (style : ReportStyle) (title : String) : String :=
  if style.quiet then title else style.paint Palette.heading ("▸ " ++ title)

/-- A line of status behind its sign. -/
def status (style : ReportStyle) (part : Palette → TerminalStyle) (sign message : String) :
    String :=
  if style.quiet then message else style.paint part sign ++ " " ++ message

/-- A line of information. -/
def info (style : ReportStyle) (message : String) : String := style.status Palette.info "ℹ" message

/-- A line of success. -/
def success (style : ReportStyle) (message : String) : String :=
  style.status Palette.success "✔" message

/-- A line of warning. -/
def warning (style : ReportStyle) (message : String) : String :=
  style.status Palette.warning "⚠" message

/-- An empty line, unless the report is quiet. -/
def spacer (style : ReportStyle) : List String := if style.quiet then [] else [""]

/-- A text filled up with spaces on the left. -/
def padLeft (width : Nat) (text : String) : String :=
  String.ofList (List.replicate (width - text.length) ' ') ++ text

/-- Rows of keys and values under a heading, the keys aligned at their ends. Without rows there is
no heading. -/
def table (style : ReportStyle) (title : String) (rows : List (String × String)) : List String :=
  if rows.isEmpty then []
  else
    let width := (rows.map fun (key, _) => key.utf8ByteSize).foldl max 0
    style.heading title :: rows.map fun (key, value) =>
      "  " ++ style.paint Palette.key (padLeft width key ++ ":") ++ " " ++
        style.paint Palette.value value

/-- Entries under a heading. Without entries there is no heading. -/
def list (style : ReportStyle) (title : String) (entries : List String) : List String :=
  if entries.isEmpty then []
  else
    let bullet := if style.palette.isSome then "•" else "-"
    style.heading title :: entries.map fun entry =>
      "  " ++ style.paint Palette.bullet bullet ++ " " ++ entry

/-- The words of a statement that are highlighted. -/
def keywords : List String :=
  ["SELECT", "FROM", "WHERE", "AND", "OR", "NOT", "IN", "IS", "NULL", "MATCH", "RETURN",
    "DISTINCT", "TRAVERSE", "MAXDEPTH", "ORDER", "BY", "ASC", "DESC", "SKIP", "LIMIT", "AS",
    "CONTAINS", "CONTAINSALL", "CONTAINSANY", "CONTAINSTEXT", "GROUP"]

/-- Whether a list of characters contains a parenthesis followed by a colon. -/
def opensPlaceholder : List Char → Bool
  | '(' :: ':' :: _ => true
  | _ :: rest => opensPlaceholder rest
  | [] => false

/-- Whether a word of a statement is painted as a placeholder. -/
def isPlaceholder (word : String) : Bool :=
  word.toList.head? = some ':' || opensPlaceholder word.toList

/-- The line of a statement. -/
def statement (style : ReportStyle) (text : String) : String :=
  match style.palette with
  | none => text
  | some palette =>
    " ".intercalate <| (Text.segments ' ' text).map fun word =>
      if isPlaceholder word then palette.placeholder.paint word
      else if keywords.contains word then palette.keyword.paint word
      else word

end ReportStyle

end RecordQuery
