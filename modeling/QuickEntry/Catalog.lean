import QuickEntry.BlockOption
import QuickEntry.Declarations

/-! The catalog of everything that can be entered, found by its display text. -/

namespace QuickEntry

open Template (plain presetting)

/-- The templates that depend on no declaration. -/
def builtinTemplates : List (String × Template) := [
  ("true", presetting "logic_boolean" "BOOL" "TRUE"),
  ("false", presetting "logic_boolean" "BOOL" "FALSE"),
  ("not", plain "logic_negate"),
  ("=", presetting "logic_compare" "OP" "EQ"),
  ("≠", presetting "logic_compare" "OP" "NEQ"),
  ("and", presetting "logic_operation" "OP" "AND"),
  ("or", presetting "logic_operation" "OP" "OR"),
  ("0", presetting "math_number" "NUM" "0"),
  ("+", plain "math_add"),
  ("-", plain "math_subtract"),
  ("*", plain "math_multiply"),
  ("/", plain "math_division"),
  ("^", plain "math_power"),
  ("<", presetting "math_compare" "OP" "LT"),
  ("≤", presetting "math_compare" "OP" "LTE"),
  (">", presetting "math_compare" "OP" "GT"),
  ("≥", presetting "math_compare" "OP" "GTE"),
  ("abs", presetting "math_single" "OP" "ABS"),
  ("sqrt", presetting "math_single" "OP" "ROOT"),
  ("neg", presetting "math_single" "OP" "NEG"),
  ("random integer", plain "math_random_int"),
  ("text", plain "text"),
  ("join", plain "text_join"),
  ("length", plain "text_length"),
  ("is empty", plain "text_isEmpty"),
  ("split", presetting "text_split" "OP" "SPLIT"),
  ("split at first", presetting "text_split" "OP" "SPLITATFIRST"),
  ("split at any", presetting "text_split" "OP" "SPLITATANY"),
  ("split at first of any", presetting "text_split" "OP" "SPLITATFIRSTOFANY"),
  ("create empty list", (plain "lists_create_with").withSetting "items" "0"),
  ("make a list", plain "lists_create_with"),
  ("add items to list", plain "lists_add_items"),
  ("length of list", plain "lists_length"),
  ("if", plain "controls_if"),
  ("if else", (plain "controls_if").withSetting "else" "1"),
  ("while", plain "controls_while"),
  ("for each number", plain "controls_forRange"),
  ("for each item in list", plain "controls_forEach"),
  ("initialize global name to", plain "global_declaration"),
  ("initialize local name in do", plain "local_declaration_statement"),
  ("initialize local name in return", plain "local_declaration_expression"),
  ("to procedure do", plain "procedures_defnoreturn"),
  ("to procedure result", plain "procedures_defreturn")]

namespace Declarations

/-- The templates that read and write a variable. -/
def variableTemplates (variableName : String) : List (String × Template) :=
  [("get " ++ variableName, presetting "lexical_variable_get" "VAR" variableName),
   ("set " ++ variableName, presetting "lexical_variable_set" "VAR" variableName)]

/-- The template that calls a procedure. -/
def callTemplate (p : Procedure) : String × Template :=
  -- The name is a field and a setting at once, so that the shape knows the arguments.
  let kind := if p.returns then "procedures_callreturn" else "procedures_callnoreturn"
  ("call " ++ p.name, (presetting kind "PROCNAME" p.name).withSetting "name" p.name)

/-- The templates of a property: reading it and writing it, as far as it allows. -/
def propertyTemplates (base : String → Template) (name : String) (p : ComponentProperty) :
    List (String × Template) :=
  let access (mode : String) :=
    ((base "component_set_get").withSetting "property_name" p.name).withSetting "set_or_get" mode
  (if p.readable then [(name ++ "." ++ p.name, access "get")] else []) ++
  (if p.writable then [("set " ++ name ++ "." ++ p.name ++ " to", access "set")] else [])

/-- The templates of a component instance: its events, methods and properties if its type is
known, and the component itself. -/
def componentTemplates (database : ComponentDatabase) (name type : String) :
    List (String × Template) :=
  let base (kind : String) : Template :=
    ((plain kind).withSetting "component_type" type).withSetting "instance_name" name
  let parts := match database.get? type with
    | none => []
    | some t =>
      (t.events.map fun e =>
        ("when " ++ name ++ "." ++ e.name,
          (base "component_event").withSetting "event_name" e.name)) ++
      (t.methods.map fun m =>
        ("call " ++ name ++ "." ++ m.name,
          (base "component_method").withSetting "method_name" m.name)) ++
      t.properties.flatMap (propertyTemplates base name)
  parts ++ [(name, base "component_component_block")]

/-- All display texts that declarations bring, each with its template; a text may come up more than
once. -/
def offers (d : Declarations) (database : ComponentDatabase) : List (String × Template) :=
  -- Earlier groups take precedence over later ones.
  builtinTemplates ++
  (d.globals.flatMap fun name => variableTemplates ("global " ++ name)) ++
  d.locals.flatMap variableTemplates ++
  d.procedures.map callTemplate ++
  d.components.flatMap fun (name, type) => componentTemplates database name type

/-- The template of each display text: the first of a text wins. -/
def templates (d : Declarations) (database : ComponentDatabase) : OrderedMap String Template :=
  .ofFirst (d.offers database)

end Declarations

/-- The options that a table of templates offers, sorted by display text; templates that make no
option are left out. -/
def optionsOf (templates : OrderedMap String Template) : List BlockOption :=
  -- A table has each display text once, so that the order is strict.
  let options := templates.entries.filterMap fun (text, t) => (t.toOption text).toOption
  options.mergeSort fun a b => a.displayText ≤ b.displayText

/-- The options for given declarations. -/
structure Catalog where
  declarations : Declarations
  /-- Sorted by display text. -/
  options : Array BlockOption
deriving DecidableEq, Repr

namespace Catalog

/-- The catalog for given declarations. -/
def build (declarations : Declarations) (database : ComponentDatabase) : Catalog :=
  ⟨declarations, (optionsOf (declarations.templates database)).toArray⟩

/-- Search the options from one position up to another for a display text, halving the range. -/
def search (options : Array BlockOption) (text : String) (first last : Nat) : Option BlockOption :=
  -- The text can only be in the half that the middle option leaves.
  if first < last then
    let middle := (first + last) / 2
    match options[middle]? with
    | none => none
    | some o =>
      if o.displayText = text then some o
      else if o.displayText < text then search options text (middle + 1) last
      else search options text first middle
  else none
termination_by last - first

/-- The option with a display text. -/
def get? (c : Catalog) (text : String) : Option BlockOption :=
  search c.options text 0 c.options.size

end Catalog

end QuickEntry
