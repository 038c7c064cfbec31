import RecordTables.Generator.Options
import Mathlib.Data.List.Induction

/-!
Which arguments the generator takes.

The arguments of a call are meant as items: `--check`, or an option for a file with the file.  Whether
an argument is an option or a file is decided by the items before it, so arguments are a row of items
in at most one way (`row_inj`).  Arguments that are no such row begin with one, and what stands behind
it tells what they are refused for (`parted`).  `read_arguments_iff` puts this together.
-/

namespace RecordTables
namespace Generator

/-! ## Items -/

/-- A part of a call that has a meaning of its own. -/
inductive Item where
  | check
  | file (option : FileOption) (path : String)
  deriving DecidableEq, Repr

namespace Item

/-- The arguments of an item. -/
def arguments : Item → List String
  | check => [checkName]
  | file option path => [option.name, path]

/-- The file that an item gives for an option. -/
def path? (option : FileOption) : Item → Option String
  | check => none
  | file option' path => if option' = option then some path else none

/-- An item that asks for something: every one but a file of definitions. -/
def IsTask : Item → Prop
  | check => True
  | file option _ => option ≠ .defs

end Item

/-- The arguments of items, one item after the other. -/
def row (items : List Item) : List String := items.flatMap Item.arguments

/-- The last file that items give for an option. -/
def lastPath? (option : FileOption) (items : List Item) : Option String :=
  (items.filterMap (Item.path? option)).getLast?

/-- The options that items mean. -/
def Options.ofItems (items : List Item) : Options where
  defs := lastPath? .defs items
  doc := lastPath? .doc items
  lua := lastPath? .lua items
  check := .check ∈ items

/-- An argument that is the name of an option. -/
def IsOption (argument : String) : Prop :=
  argument = checkName ∨ ∃ option : FileOption, argument = option.name

/-- What an error blames arguments for. -/
inductive Blames (arguments : List String) : UsageError → Prop
  /-- The first argument that should be an option and is none. -/
  | unknown {items : List Item} {argument : String} {rest : List String}
      (h : arguments = row items ++ argument :: rest) (hunknown : ¬IsOption argument) :
      Blames arguments (.unknown argument)
  /-- An option for a file at the end. -/
  | missingFile {items : List Item} {option : FileOption}
      (h : arguments = row items ++ [option.name]) : Blames arguments (.missingFile option)
  /-- Nothing but files of definitions. -/
  | nothingToDo {items : List Item} (h : arguments = row items)
      (hidle : ¬∃ item ∈ items, item.IsTask) : Blames arguments .nothingToDo

/-! ## Names -/

namespace FileOption

theorem name_ne_checkName (option : FileOption) : option.name ≠ checkName := by
  cases option <;> decide

theorem ofName?_name (option : FileOption) : ofName? option.name = some option := by
  cases option <;> rfl

theorem name_inj {option option' : FileOption} (h : option.name = option'.name) :
    option = option' := by
  have hsome : some option = some option' := by rw [← ofName?_name, h, ofName?_name]
  exact Option.some.inj hsome

theorem name_of_ofName? {argument : String} {option : FileOption}
    (h : ofName? argument = some option) : option.name = argument := by
  have hname := List.find?_some h
  exact of_decide_eq_true hname

end FileOption

theorem ofName?_of_not_isOption {argument : String} (h : ¬IsOption argument) :
    FileOption.ofName? argument = none := by
  rw [Option.eq_none_iff_forall_ne_some]
  intro option hname
  exact h (Or.inr ⟨option, (FileOption.name_of_ofName? hname).symm⟩)

/-! ## Rows -/

theorem row_cons (item : Item) (items : List Item) :
    row (item :: items) = item.arguments ++ row items := List.flatMap_cons

/-- An item ends by itself. -/
theorem Item.append_inj {item item' : Item} {rest rest' : List String}
    (h : item.arguments ++ rest = item'.arguments ++ rest') : item = item' ∧ rest = rest' := by
  cases item with
  | check =>
    cases item' with
    | check => exact ⟨rfl, (List.cons.inj h).2⟩
    | file option path => exact absurd (List.cons.inj h).1.symm option.name_ne_checkName
  | file option path =>
    cases item' with
    | check => exact absurd (List.cons.inj h).1 option.name_ne_checkName
    | file option' path' =>
      obtain ⟨hname, h⟩ := List.cons.inj h
      obtain ⟨rfl, hrest⟩ := List.cons.inj h
      obtain rfl := FileOption.name_inj hname
      exact ⟨rfl, hrest⟩

theorem row_inj {items items' : List Item} (h : row items = row items') : items = items' := by
  induction items generalizing items' with
  | nil =>
    cases items' with
    | nil => rfl
    | cons item items' => cases item <;> cases h
  | cons item items ih =>
    cases items' with
    | nil => cases item <;> cases h
    | cons item' items' =>
      rw [row_cons, row_cons] at h
      obtain ⟨rfl, hrest⟩ := Item.append_inj h
      rw [ih hrest]

/-- A row of items, and what else there can be behind one. -/
inductive Parted : List String → Prop
  | row (items : List Item) : Parted (row items)
  | unknown (items : List Item) {argument : String} (rest : List String)
      (hunknown : ¬IsOption argument) : Parted (Generator.row items ++ argument :: rest)
  | missingFile (items : List Item) (option : FileOption) :
      Parted (Generator.row items ++ [option.name])

theorem Parted.item {rest : List String} (h : Parted rest) (item : Item) :
    Parted (item.arguments ++ rest) := by
  cases h with
  | row items => exact .row (item :: items)
  | unknown items rest hunknown =>
    rw [← List.append_assoc]
    exact .unknown (item :: items) rest hunknown
  | missingFile items option =>
    rw [← List.append_assoc]
    exact .missingFile (item :: items) option

/-- There are no other arguments. -/
theorem parted : ∀ arguments, Parted arguments
  | [] => .row []
  | argument :: rest => by
    by_cases hcheck : argument = checkName
    · exact hcheck ▸ (parted rest).item .check
    by_cases hfile : ∃ option : FileOption, argument = option.name
    · obtain ⟨option, rfl⟩ := hfile
      -- the next argument is the file, even if it looks like an option
      cases rest with
      | nil => exact .missingFile [] option
      | cons path rest => exact (parted rest).item (.file option path)
    · exact .unknown [] rest (not_or.2 ⟨hcheck, hfile⟩)

/-! ## What items mean -/

theorem Item.path?_eq_some_iff {option : FileOption} {item : Item} {path : String} :
    item.path? option = some path ↔ item = .file option path := by
  cases item with
  | check => exact ⟨nofun, nofun⟩
  | file option' path' => simp [Item.path?]

theorem lastPath?_append (option : FileOption) (items : List Item) (item : Item) :
    lastPath? option (items ++ [item]) = (item.path? option).or (lastPath? option items) := by
  unfold lastPath?
  rw [List.filterMap_append, List.getLast?_append]
  cases hpath : item.path? option <;> simp [hpath]

theorem isSome_lastPath?_iff {option : FileOption} {items : List Item} :
    (lastPath? option items).isSome = true ↔ ∃ path, .file option path ∈ items := by
  rw [lastPath?, List.getLast?_isSome]
  constructor
  · intro h
    obtain ⟨path, hpath⟩ := List.exists_mem_of_ne_nil _ h
    obtain ⟨item, hitem, hpath⟩ := List.mem_filterMap.1 hpath
    exact ⟨path, Item.path?_eq_some_iff.1 hpath ▸ hitem⟩
  · rintro ⟨path, hitem⟩
    exact List.ne_nil_of_mem (List.mem_filterMap.2 ⟨_, hitem, Item.path?_eq_some_iff.2 rfl⟩)

namespace Options

theorem isActive_ofItems_iff {items : List Item} :
    (ofItems items).isActive = true ↔ ∃ item ∈ items, item.IsTask := by
  have hactive : (ofItems items).isActive = true ↔
      .check ∈ items ∨ (∃ path, .file .doc path ∈ items) ∨ ∃ path, .file .lua path ∈ items := by
    rw [← isSome_lastPath?_iff, ← isSome_lastPath?_iff]
    simp [isActive, ofItems, or_assoc]
  rw [hactive]
  constructor
  · rintro (h | ⟨path, h⟩ | ⟨path, h⟩)
    · exact ⟨_, h, trivial⟩
    · exact ⟨_, h, nofun⟩
    · exact ⟨_, h, nofun⟩
  · rintro ⟨item, hitem, htask⟩
    cases item with
    | check => exact Or.inl hitem
    | file option path =>
      cases option with
      | defs => exact absurd rfl htask
      | doc => exact Or.inr (Or.inl ⟨path, hitem⟩)
      | lua => exact Or.inr (Or.inr ⟨path, hitem⟩)

/-- The options with one more item. -/
def withItem (o : Options) : Item → Options
  | .check => { o with check := true }
  | .file option path => o.withFile option path

theorem ofItems_append (items : List Item) (item : Item) :
    ofItems (items ++ [item]) = (ofItems items).withItem item := by
  unfold ofItems
  simp only [lastPath?_append, List.mem_append, List.mem_singleton]
  cases item with
  | check => simp [withItem, Item.path?]
  | file option path => cases option <;> simp [withItem, withFile, Item.path?]

theorem foldl_withItem (items : List Item) : items.foldl withItem none = ofItems items := by
  induction items using List.reverseRecOn with
  | nil => rfl
  | append_singleton items item ih =>
    rw [List.foldl_append, ih, List.foldl_cons, List.foldl_nil, ofItems_append]

/-! ## Reading -/

theorem readFrom_item (o : Options) (item : Item) (rest : List String) :
    o.readFrom (item.arguments ++ rest) = (o.withItem item).readFrom rest := by
  cases item with
  | check => rfl
  | file option path => cases option <;> rfl

theorem readFrom_row (o : Options) (items : List Item) (rest : List String) :
    o.readFrom (row items ++ rest) = (items.foldl withItem o).readFrom rest := by
  induction items generalizing o with
  | nil => rfl
  | cons item items ih =>
    rw [row_cons, List.append_assoc, readFrom_item, ih, List.foldl_cons]

/-- A row of items is read item by item, whatever comes after it. -/
theorem read_row_append (items : List Item) (rest : List String) :
    read (row items ++ rest) = (ofItems items).readFrom rest := by
  rw [read, readFrom_row, foldl_withItem]

theorem read_row (items : List Item) :
    read (row items) =
      if (ofItems items).isActive then .ok (ofItems items) else .error .nothingToDo := by
  rw [← List.append_nil (row items), read_row_append, readFrom]

theorem read_row_of_task {items : List Item} (h : ∃ item ∈ items, item.IsTask) :
    read (row items) = .ok (ofItems items) := by
  rw [read_row, if_pos (isActive_ofItems_iff.2 h)]

theorem readFrom_unknown (o : Options) {argument : String} (rest : List String)
    (h : ¬IsOption argument) : o.readFrom (argument :: rest) = .error (.unknown argument) := by
  unfold readFrom
  rw [if_neg fun hcheck => h (Or.inl hcheck), ofName?_of_not_isOption h]

theorem readFrom_missingFile (o : Options) (option : FileOption) :
    o.readFrom [option.name] = .error (.missingFile option) := by
  cases option <;> rfl

end Options

theorem Blames.read_eq {arguments : List String} {e : UsageError} (h : Blames arguments e) :
    Options.read arguments = .error e := by
  cases h with
  | unknown h hunknown => rw [h, Options.read_row_append, Options.readFrom_unknown _ _ hunknown]
  | missingFile h => rw [h, Options.read_row_append, Options.readFrom_missingFile]
  | nothingToDo h hidle =>
    rw [h, Options.read_row, if_neg (mt Options.isActive_ofItems_iff.1 hidle)]

/-- Arguments have a meaning, or there is something to blame them for. -/
theorem meant_or_blamed (arguments : List String) :
    (∃ items, arguments = row items ∧ ∃ item ∈ items, item.IsTask) ∨ ∃ e, Blames arguments e := by
  cases parted arguments with
  | row items =>
    by_cases htask : ∃ item ∈ items, item.IsTask
    · exact Or.inl ⟨items, rfl, htask⟩
    · exact Or.inr ⟨_, .nothingToDo rfl htask⟩
  | unknown items rest hunknown => exact Or.inr ⟨_, .unknown rfl hunknown⟩
  | missingFile items option => exact Or.inr ⟨_, .missingFile rfl⟩

theorem read_eq_ok_iff {arguments : List String} {o : Options} :
    Options.read arguments = .ok o ↔
      ∃ items, arguments = row items ∧ (∃ item ∈ items, item.IsTask) ∧ o = Options.ofItems items := by
  constructor
  · intro h
    rcases meant_or_blamed arguments with ⟨items, rfl, htask⟩ | ⟨e, hblames⟩
    · rw [Options.read_row_of_task htask] at h
      exact ⟨items, rfl, htask, (Except.ok.inj h).symm⟩
    · rw [hblames.read_eq] at h
      cases h
  · rintro ⟨items, rfl, htask, rfl⟩
    exact Options.read_row_of_task htask

theorem read_eq_error_iff {arguments : List String} {e : UsageError} :
    Options.read arguments = .error e ↔ Blames arguments e := by
  refine ⟨fun h => ?_, Blames.read_eq⟩
  rcases meant_or_blamed arguments with ⟨items, rfl, htask⟩ | ⟨e', hblames⟩
  · rw [Options.read_row_of_task htask] at h
    cases h
  · rw [hblames.read_eq] at h
    exact Except.error.inj h ▸ hblames

/-- Arguments are taken exactly if they are a row of items with a task among them, and then they mean
what these items do.  All others are refused for the first thing that is wrong with them, and as
nothing to do only if they are a row of items.  No arguments are a row of items in two ways. -/
theorem read_arguments_iff :
    Function.Injective row ∧ ∀ arguments,
      (∀ o, Options.read arguments = .ok o ↔ ∃ items, arguments = row items ∧
        (∃ item ∈ items, item.IsTask) ∧ o = Options.ofItems items) ∧
      ∀ e, Options.read arguments = .error e ↔ Blames arguments e :=
  ⟨fun _ _ => row_inj, fun _ => ⟨fun _ => read_eq_ok_iff, fun _ => read_eq_error_iff⟩⟩

/-- Where a file belongs, the name of an option is a file, and the last file counts. -/
example : Options.read ["--doc", "--check", "--lua", "a.lua", "--doc", "--doc"] =
    .ok ⟨none, some "--doc", some "a.lua", false⟩ := by decide

end Generator
end RecordTables
