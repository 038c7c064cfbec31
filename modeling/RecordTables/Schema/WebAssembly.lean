import RecordTables.Schema.Resolution

/-!
The structures of the WebAssembly binary format.

One table for each section of a module, which is read from the start of the section, and one for
each entry that sections hold.  The tables are given as declarations and resolved like those of any
document.
-/

namespace RecordTables
namespace WebAssembly

def integer (name type : String) : FieldDecl := ⟨name, none, some type, .integer, none, none, []⟩

def string (name : String) : FieldDecl := ⟨name, none, some "string", .string, none, none, []⟩

def record (name tag : String) : FieldDecl :=
  ⟨name, none, some (referenceMark ++ tag), .table, none, none, []⟩

def sequence (name type count : String) : FieldDecl :=
  ⟨name, none, some type, .table, some (.named count), none, []⟩

/-- A field with one of several types, chosen by the field of the tag `selector`. -/
def choice (name tag selector : String) (cases : List CaseDecl) : FieldDecl :=
  ⟨name, some tag, none, .conditional, none, some (referenceMark ++ selector), cases⟩

def table (tag name : String) (fields : List FieldDecl) : TableDecl := ⟨tag, name, fields⟩

def entries : List TableDecl :=
  [ table "resizable_limit" "resizable_limit_t" [
      integer "flags" "uint8",
      integer "initial" "uint32",
      integer "maximum" "uint32"],
    table "global_type" "global_type_t" [
      integer "value_type" "int8",
      integer "mutability" "bool"],
    table "table_type" "table_type_t" [
      integer "element_type" "int8",
      record "resizable_limit" "resizable_limit"],
    table "memory_type" "memory_type_t" [
      record "resizable_limit" "resizable_limit"],
    table "init_expr" "init_expr_t" [
      integer "size" "uint32",
      sequence "code" "uint8" "self::size"],
    table "func_type" "func_type_t" [
      integer "form" "int8",
      integer "param_count" "uint32",
      sequence "param_types" "int8" "self::param_count",
      integer "return_count" "uint8",
      sequence "return_types" "int8" "self::return_count"],
    table "import_entry" "import_entry_t" [
      integer "module_length" "uint32",
      string "module_str",
      integer "field_len" "uint32",
      string "field_str",
      integer "kind" "uint8",
      choice "type" "import_type" "kind" [
        ⟨0, "uint32", .integer⟩,
        ⟨1, "self::table_type", .table⟩,
        ⟨2, "self::memory_type", .table⟩,
        ⟨3, "self::global_type", .table⟩]],
    table "export_entry" "export_entry_t" [
      integer "field_len" "uint32",
      string "field_str",
      integer "kind" "uint8",
      integer "index" "uint32"],
    table "global_entry" "global_entry_t" [
      record "type" "global_type",
      record "init" "init_expr"],
    table "local_entry" "local_entry_t" [
      integer "count" "uint32",
      integer "type" "int8"],
    table "function_body" "function_body_t" [
      integer "body_size" "uint32",
      integer "local_count" "uint32",
      sequence "locals" "self::local_entry" "self::local_count",
      sequence "code" "uint8" "*"],
    table "elem_segment" "elem_segment_t" [
      integer "index" "uint32",
      record "offset" "init_expr",
      integer "num_length" "uint32",
      sequence "elems" "uint32" "self::num_length"],
    table "data_segment" "data_segment_t" [
      integer "index" "uint32",
      record "offset" "init_expr",
      integer "size" "uint32",
      sequence "data" "uint8" "self::size"],
    table "name_entry" "name_entry_t" [
      integer "index" "uint32",
      integer "name_len" "uint32",
      string "name_str"]]

def sections : List TableDecl :=
  [ table "magic_number" "W_Magic_Number" [
      integer "magic" "uint32",
      integer "version" "uint32"],
    table "custom_section" "W_Custom_Section" [
      integer "name_len" "uint32",
      string "name",
      sequence "payload" "uint8" "*"],
    table "type_section" "W_Type_Section" [
      integer "count" "uint32",
      sequence "entries" "self::func_type" "self::count"],
    table "import_section" "W_Import_Section" [
      integer "count" "uint32",
      sequence "entries" "self::import_entry" "self::count"],
    table "function_section" "W_Function_Section" [
      integer "count" "uint32",
      sequence "types" "uint32" "self::count"],
    table "table_section" "W_Table_Section" [
      integer "count" "uint32",
      sequence "entries" "self::table_type" "self::count"],
    table "memory_section" "W_Memory_Section" [
      integer "count" "uint32",
      sequence "entries" "self::memory_type" "self::count"],
    table "global_section" "W_Global_Section" [
      integer "count" "uint32",
      sequence "globals" "self::global_entry" "self::count"],
    table "export_section" "W_Export_Section" [
      integer "count" "uint32",
      sequence "entries" "self::export_entry" "self::count"],
    table "start_section" "W_Start_Section" [
      integer "index" "uint32"],
    table "element_section" "W_Element_Section" [
      integer "count" "uint32",
      sequence "entries" "self::elem_segment" "self::count"],
    table "code_section" "W_Code_Section" [
      integer "count" "uint32",
      sequence "bodies" "self::function_body" "self::count"],
    table "data_section" "W_Data_Section" [
      integer "count" "uint32",
      sequence "entries" "self::data_segment" "self::count"]]

def declarations : Declarations := ⟨sections, entries⟩

def tables : Except SchemaError TableSet := TableSet.ofDeclarations declarations

end WebAssembly
end RecordTables
