import RecordTables.Value

/-!
The libraries of Lua.

A library is a table of functions and a few constants under its name.  Most functions are known by
name alone: `Function.library` with the name under which the function can be had from the globals.
-/

namespace RecordTables

inductive Library where
  | coroutine
  | table
  | io
  | os
  | string
  | utf8
  | math
  | package
  | debug
  deriving DecidableEq, Repr

namespace Library

/-- The name of a library, which is the name of its global. -/
def name : Library → String
  | .coroutine => "coroutine"
  | .table => "table"
  | .io => "io"
  | .os => "os"
  | .string => "string"
  | .utf8 => "utf8"
  | .math => "math"
  | .package => "package"
  | .debug => "debug"

/-- The libraries that an instance accepts. -/
def safe : List Library := [.coroutine, .table, .io, .os, .string, .utf8, .math, .package]

def all : List Library := safe ++ [.debug]

def ofName? (name : String) : Option Library := all.find? (·.name = name)

/-- The functions that are there without any library. -/
def baseFunctions : List String :=
  ["assert", "collectgarbage", "dofile", "error", "getmetatable", "ipairs", "load", "loadfile",
    "next", "pairs", "pcall", "print", "rawequal", "rawget", "rawlen", "rawset", "select",
    "setmetatable", "tonumber", "tostring", "type", "warn", "xpcall"]

def functions : Library → List String
  | .coroutine => ["close", "create", "isyieldable", "resume", "running", "status", "wrap", "yield"]
  | .table => ["concat", "insert", "move", "pack", "remove", "sort", "unpack"]
  | .io =>
    ["close", "flush", "input", "lines", "open", "output", "popen", "read", "tmpfile", "type",
      "write"]
  | .os =>
    ["clock", "date", "difftime", "execute", "exit", "getenv", "remove", "rename", "setlocale",
      "time", "tmpname"]
  | .string =>
    ["byte", "char", "dump", "find", "format", "gmatch", "gsub", "len", "lower", "match", "pack",
      "packsize", "rep", "reverse", "sub", "unpack", "upper"]
  | .utf8 => ["char", "codepoint", "codes", "len", "offset"]
  | .math =>
    ["abs", "acos", "asin", "atan", "ceil", "cos", "cosh", "deg", "exp", "floor", "fmod", "frexp",
      "ldexp", "log", "log10", "max", "min", "modf", "pow", "rad", "random", "randomseed", "sin",
      "sinh", "sqrt", "tan", "tanh", "tointeger", "type", "ult"]
  | .package => ["loadlib", "searchpath"]
  | .debug => []

/-- The functions that stand in the metatable of all strings, beside the library itself. -/
def stringOperators : List String :=
  ["__add", "__div", "__idiv", "__mod", "__mul", "__pow", "__sub", "__unm"]

/-- The places where files of modules are looked for. -/
def searchPath : String :=
  "/usr/local/share/lua/5.4/?.lua;/usr/local/share/lua/5.4/?/init.lua;"
    ++ "/usr/local/lib/lua/5.4/?.lua;/usr/local/lib/lua/5.4/?/init.lua;./?.lua;./?/init.lua"

def constants : Library → List (String × Value)
  | .utf8 =>
    [("charpattern", .string (Text.bytesOf "[\x00-\x7f"
      ++ [0xc2, 0x2d, 0xfd, 0x5d, 0x5b, 0x80, 0x2d, 0xbf, 0x5d, 0x2a]))]
  | .math =>
    [("huge", .float ⟨0x7ff0000000000000⟩), ("maxinteger", .integer 0x7fffffffffffffff),
      ("mininteger", .integer (-0x8000000000000000)), ("pi", .float ⟨0x400921fb54442d18⟩)]
  | .package =>
    [("config", .ofText "/\n;\n?\n!\n-\n"), ("cpath", .ofText "/usr/local/lib/lua/5.4/?.so;./?.so"),
      ("path", .ofText searchPath)]
  | _ => []

/-- The entries of a library: its functions, and then its constants. -/
def entries (library : Library) : List (String × Value) :=
  library.functions.map (fun f => (f, .function (.library s!"{library.name}.{f}")))
    ++ library.constants

/-- The names of the streams of the `io` library, each of them a userdata. -/
def streams : List String := ["stdin", "stdout", "stderr"]

end Library
end RecordTables
