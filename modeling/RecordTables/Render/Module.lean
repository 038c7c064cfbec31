import RecordTables.Render.Markdown

/-!
The Lua module of a table set.

A chunk that makes a table under the module's name, puts each class into it under the class's own
name, and returns it.  `fragments` gives it line by line, and `write` writes each line in pieces.
-/

namespace RecordTables
namespace Render
namespace Module

open Markdown (line argumentList)

def entry (module : String) (t : Table) : List String :=
  [line s!"-- {t.name}({argumentList t})", line s!"{module}.{t.name} = {t.name}"]

def fragments (s : TableSet) (module : String) : List String :=
  [line "-- generated by wasmtab-gen; do not edit", line s!"local {module} = \x7b\x7d", line ""]
    ++ s.tables.flatMap (entry module)
    ++ [line "", line s!"return {module}"]

def render (s : TableSet) (module : String) : String := joined (fragments s module)

section

variable {σ : Type} [Target σ]

def write (s : TableSet) (module : String) : Writing σ Unit := do
  putLine ["-- generated by wasmtab-gen; do not edit"]
  putLine ["local ", module, " = \x7b\x7d"]
  putLine []
  s.tables.forM fun t => do
    putLine ["-- ", t.name, "(", argumentList t, ")"]
    putLine [module, ".", t.name, " = ", t.name]
  putLine []
  putLine ["return ", module]

end

end Module
end Render
end RecordTables
