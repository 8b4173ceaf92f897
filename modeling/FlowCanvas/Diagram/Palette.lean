import FlowCanvas.Json.Value

/-!
# Colours and settings

## Main definitions

* `ThemeVariables` — the fonts and colours that a theme can be adjusted with.
* `Swatch`, `swatch` — the colours of a line of the legend, by name.
* `Rendering` — everything that is chosen for a diagram apart from what it shows.
-/

namespace FlowCanvas

/-- The fonts and colours that a theme can be adjusted with. -/
structure ThemeVariables where
  fontSize : String := "14px"
  /-- The fonts, the first one that exists being used. -/
  fontFamily : String := "Inter, system-ui, sans-serif"
  primaryColor : String := "#3b82f6"
  /-- The colour of the text in nodes. -/
  primaryTextColor : String := "#ffffff"
  /-- The colour of the outlines of nodes. -/
  primaryBorderColor : String := "#1d4ed8"
  lineColor : String := "#64748b"
  secondaryColor : String := "#8b5cf6"
  tertiaryColor : String := "#f1f5f9"
  deriving DecidableEq, Repr, Inhabited

/-- The fonts and colours by name. -/
def ThemeVariables.toJson (v : ThemeVariables) : Json :=
  Json.ofMembers [
    ("fontSize", .str v.fontSize),
    ("fontFamily", .str v.fontFamily),
    ("primaryColor", .str v.primaryColor),
    ("primaryTextColor", .str v.primaryTextColor),
    ("primaryBorderColor", .str v.primaryBorderColor),
    ("lineColor", .str v.lineColor),
    ("secondaryColor", .str v.secondaryColor),
    ("tertiaryColor", .str v.tertiaryColor)]

/-- The colours of a line of the legend. -/
structure Swatch where
  fill : String
  stroke : String
  deriving DecidableEq, Repr, Inhabited

namespace Swatch

/-- The swatches that have a name. -/
def named : List (String × Swatch) := [
  ("primary", ⟨"#3b82f6", "#1d4ed8"⟩),
  ("accent", ⟨"#8b5cf6", "#6d28d9"⟩),
  ("secondary", ⟨"#64748b", "#334155"⟩),
  ("success", ⟨"#22c55e", "#15803d"⟩),
  ("warning", ⟨"#f59e0b", "#b45309"⟩),
  ("error", ⟨"#ef4444", "#b91c1c"⟩),
  ("info", ⟨"#06b6d4", "#0e7490"⟩)]

/-- The grey swatch, which has no name. -/
def grey : Swatch := ⟨"#9ca3af", "#4b5563"⟩

end Swatch

/-- The swatch of a name; every name that is not known is grey. -/
def swatch (name : String) : Swatch := (Swatch.named.lookup name).getD .grey

/-- Everything that is chosen for a diagram apart from what it shows. -/
structure Rendering where
  /-- The columns that the lines of a node have. -/
  wrapWidth : Nat := 20
  /-- The name of the action that a click on a node starts. -/
  clickHook : String := "onNodeClick"
  themeVariables : ThemeVariables := {}
  deriving DecidableEq, Repr, Inhabited

end FlowCanvas
