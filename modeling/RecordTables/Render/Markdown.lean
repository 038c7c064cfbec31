import RecordTables.Render.Sink
import RecordTables.Schema.Description

/-!
The Markdown reference of a table set.

After an introduction each table has a section with its getters, its setters and its constructors,
in set order; fields come in declaration order.  `fragments` gives the text line by line, each line
with its end; `write` writes it as it goes through the tables, each line in pieces.
-/

namespace RecordTables
namespace Render
namespace Markdown

def line (text : String) : String := text ++ "\n"

/-- The introduction, which is the same for every set. -/
def introduction : List String :=
  [ "# Generated tables",
    "",
    "Every table below is a global class once the runtime is bootstrapped.",
    "The classes are also gathered in the `wasm` module (`wasm.lua`, or the built-in preload):",
    "",
    "```lua",
    "local wasm = require(\"wasm\")",
    "local limit = wasm.resizable_limit_t(1, 1, 16)",
    "print(limit:set_maximum(32):maximum())",
    "```",
    "" ].map line

/-- What a table is called by the list that declares it. -/
def originName : Origin → String
  | .read => "read table"
  | .definition => "definition table"

/-- The arguments of a constructor: the field names in order. -/
def argumentList (t : Table) : String := String.intercalate ", " (t.fields.map (·.name))

def getter (t : Table) (f : Field) : String :=
  line s!"{t.name}:{f.name}() -- return type: {f.describe t}<br/>"

def setter (t : Table) (f : Field) : String :=
  line s!"{t.name}:{setterName f.name}(v) -- arg type: {f.describe t}, returns the record<br/>"

def tableSection (t : Table) : List String :=
  [line s!"## __{t.name}__:", line "", line s!"_{originName t.origin}, tag `{t.tag}`_", line "",
    line "### _getter fields_:"]
    ++ t.fields.map (getter t)
    ++ [line "", line "### _setter fields_:"]
    ++ t.fields.map (setter t)
    ++ [line "", line "### _constructors_:",
      line s!"{t.name}.new({argumentList t}) -- missing args take defaults<br/>",
      line s!"{t.name}({argumentList t}) -- lazy constructor<br/>", line ""]

def fragments (s : TableSet) : List String := introduction ++ s.tables.flatMap tableSection

def render (s : TableSet) : String := joined (fragments s)

section

variable {σ : Type} [Target σ]

def writeTable (t : Table) : Writing σ Unit := do
  putLine ["## __", t.name, "__:"]
  putLine []
  putLine ["_", originName t.origin, ", tag `", t.tag, "`_"]
  putLine []
  putLine ["### _getter fields_:"]
  t.fields.forM fun f => putLine [t.name, ":", f.name, "() -- return type: ", f.describe t, "<br/>"]
  putLine []
  putLine ["### _setter fields_:"]
  t.fields.forM fun f => putLine
    [t.name, ":", setterName f.name, "(v) -- arg type: ", f.describe t, ", returns the record<br/>"]
  putLine []
  putLine ["### _constructors_:"]
  putLine [t.name, ".new(", argumentList t, ") -- missing args take defaults<br/>"]
  putLine [t.name, "(", argumentList t, ") -- lazy constructor<br/>"]
  putLine []

def write (s : TableSet) : Writing σ Unit := do
  introduction.forM put
  s.tables.forM writeTable

end

end Markdown
end Render
end RecordTables
