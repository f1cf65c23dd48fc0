import QuickEntry.Shape

/-! The kinds of blocks, their default fields and the shape that each kind derives. -/

namespace QuickEntry

/-- The kinds of blocks that the editor can make. -/
inductive BlockKind where
  | logicBoolean | logicNegate | logicCompare | logicOperation
  | mathNumber | mathAdd | mathMultiply | mathSubtract | mathDivision | mathPower | mathCompare
  | mathSingle | mathRandomInt
  | text | textJoin | textLength | textIsEmpty | textSplit
  | listsCreateWith | listsAddItems | listsLength
  | controlsIf | controlsWhile | controlsForRange | controlsForEach
  | globalDeclaration | lexicalVariableGet | lexicalVariableSet
  | localDeclarationStatement | localDeclarationExpression
  | proceduresDefNoReturn | proceduresDefReturn | proceduresCallNoReturn | proceduresCallReturn
  | componentEvent | componentMethod | componentSetGet | componentComponentBlock
deriving DecidableEq, Repr

/-- What a shape may ask beyond the block itself. -/
structure Surroundings where
  /-- The argument names of a declared procedure. -/
  procedureArguments : String → Option (List String)
  /-- The description of a component type. -/
  componentType : String → Option ComponentType

namespace BlockKind

open SocketSpec (numbered)

/-- The name of a kind in block programs. -/
def name : BlockKind → String
  | logicBoolean => "logic_boolean"
  | logicNegate => "logic_negate"
  | logicCompare => "logic_compare"
  | logicOperation => "logic_operation"
  | mathNumber => "math_number"
  | mathAdd => "math_add"
  | mathMultiply => "math_multiply"
  | mathSubtract => "math_subtract"
  | mathDivision => "math_division"
  | mathPower => "math_power"
  | mathCompare => "math_compare"
  | mathSingle => "math_single"
  | mathRandomInt => "math_random_int"
  | text => "text"
  | textJoin => "text_join"
  | textLength => "text_length"
  | textIsEmpty => "text_isEmpty"
  | textSplit => "text_split"
  | listsCreateWith => "lists_create_with"
  | listsAddItems => "lists_add_items"
  | listsLength => "lists_length"
  | controlsIf => "controls_if"
  | controlsWhile => "controls_while"
  | controlsForRange => "controls_forRange"
  | controlsForEach => "controls_forEach"
  | globalDeclaration => "global_declaration"
  | lexicalVariableGet => "lexical_variable_get"
  | lexicalVariableSet => "lexical_variable_set"
  | localDeclarationStatement => "local_declaration_statement"
  | localDeclarationExpression => "local_declaration_expression"
  | proceduresDefNoReturn => "procedures_defnoreturn"
  | proceduresDefReturn => "procedures_defreturn"
  | proceduresCallNoReturn => "procedures_callnoreturn"
  | proceduresCallReturn => "procedures_callreturn"
  | componentEvent => "component_event"
  | componentMethod => "component_method"
  | componentSetGet => "component_set_get"
  | componentComponentBlock => "component_component_block"

/-- All kinds, grouped by subject. -/
def all : List BlockKind :=
  [logicBoolean, logicNegate, logicCompare, logicOperation,
   mathNumber, mathAdd, mathMultiply, mathSubtract, mathDivision, mathPower, mathCompare,
   mathSingle, mathRandomInt,
   text, textJoin, textLength, textIsEmpty, textSplit,
   listsCreateWith, listsAddItems, listsLength,
   controlsIf, controlsWhile, controlsForRange, controlsForEach,
   globalDeclaration, lexicalVariableGet, lexicalVariableSet,
   localDeclarationStatement, localDeclarationExpression,
   proceduresDefNoReturn, proceduresDefReturn, proceduresCallNoReturn, proceduresCallReturn,
   componentEvent, componentMethod, componentSetGet, componentComponentBlock]

/-- The kind with a name. -/
def ofName? (name : String) : Option BlockKind := all.find? (·.name = name)

/-- The fields of a new block of a kind. -/
def defaultFields : BlockKind → List (String × String)
  | logicBoolean => [("BOOL", "TRUE")]
  | logicCompare => [("OP", "EQ")]
  | logicOperation => [("OP", "AND")]
  | mathNumber => [("NUM", "0")]
  | mathCompare => [("OP", "LT")]
  | mathSingle => [("OP", "ROOT")]
  | text => [("TEXT", "")]
  | textSplit => [("OP", "SPLIT")]
  | controlsForRange => [("VAR", "number")]
  | controlsForEach => [("VAR", "item")]
  | globalDeclaration => [("NAME", "name")]
  | lexicalVariableGet => [("VAR", "")]
  | lexicalVariableSet => [("VAR", "")]
  | localDeclarationStatement => [("VAR0", "name")]
  | localDeclarationExpression => [("VAR0", "name")]
  | proceduresDefNoReturn => [("NAME", "procedure")]
  | proceduresDefReturn => [("NAME", "procedure")]
  | proceduresCallNoReturn => [("PROCNAME", "")]
  | proceduresCallReturn => [("PROCNAME", "")]
  | _ => []

/-- The names of the kinds that declare a procedure. -/
def procedureDefinitions : List String := [proceduresDefNoReturn.name, proceduresDefReturn.name]

/-- Numbers. -/
def numberCheck : TypeCheck := .oneOf ["Number"]

/-- Texts. -/
def textCheck : TypeCheck := .oneOf ["String"]

/-- Truth values. -/
def booleanCheck : TypeCheck := .oneOf ["Boolean"]

/-- Lists. -/
def listCheck : TypeCheck := .oneOf ["Array"]

/-- The number of fields `VAR0`, `VAR1` and so on without a gap; no more than there are fields. -/
def numberedNames (fields : OrderedMap String String) : Nat :=
  -- The first gap ends the numbering.
  ((List.range fields.size).takeWhile fun i => fields.contains ("VAR" ++ toString i)).length

/-- The number of names that a local declaration declares, at least one. -/
def localNameCount (fields : OrderedMap String String) (mutation : Mutation) : Nat :=
  -- Fields and structural state may disagree; the longer list counts.
  max (max mutation.args.length (numberedNames fields)) 1

/-- The inputs for the initial values of local names. -/
def localSockets (fields : OrderedMap String String) (mutation : Mutation) : List SocketSpec :=
  numbered "DECL" .any (localNameCount fields mutation)

/-- The inputs for the arguments of a call: those that the call lists itself, else those of the
procedure that it names. -/
def argumentSockets (fields : OrderedMap String String) (mutation : Mutation)
    (around : Surroundings) : List SocketSpec :=
  -- The structural state goes before the field.
  let called := mutation.attribute? "name" <|> fields.get? "PROCNAME"
  let args :=
    if mutation.args.isEmpty then (called.bind around.procedureArguments).getD []
    else mutation.args
  numbered "ARG" .any args.length

/-- The inputs of a conditional: a test and a body for each branch, and a body for `else`. -/
def branchSockets (mutation : Mutation) : List SocketSpec :=
  -- The first branch is always there, and `else` comes last.
  let branches := (List.range (mutation.count "elseif" 0 + 1)).flatMap fun i =>
    [.value ("IF" ++ toString i) booleanCheck, .statement ("DO" ++ toString i)]
  if mutation.count "else" 0 > 0 then branches ++ [.statement "ELSE"] else branches

/-- The shape of a call to a method, which depends on the method's description. -/
def methodShape (mutation : Mutation) (around : Surroundings) : Shape :=
  -- A call to an unknown method is a statement without inputs.
  let method := do
    let type ← around.componentType (← mutation.attribute? "component_type")
    type.method? (← mutation.attribute? "method_name")
  match method with
  | none => .statement
  | some m =>
    let shape := match m.returnType with
      | some type => Shape.value (.ofTypeName type)
      | none => .statement
    shape.withSockets (m.params.zipIdx.map fun (parameter, i) =>
      .value ("ARG" ++ toString i) (.ofTypeName parameter.type))

/-- The shape of reading or writing a property, which depends on the property's description. -/
def propertyShape (mutation : Mutation) (around : Surroundings) : Shape :=
  -- An unknown property takes and gives values of any type.
  let property := do
    let type ← around.componentType (← mutation.attribute? "component_type")
    type.property? (← mutation.attribute? "property_name")
  let check := (property.map fun p => TypeCheck.ofTypeName p.type).getD .any
  if mutation.attribute? "set_or_get" = some "set" then
    Shape.statement.withSockets [.value "VALUE" check]
  else .value check

/-- The shape that a kind derives from the fields and the structural state of a block. -/
def shape (kind : BlockKind) (fields : OrderedMap String String) (mutation : Mutation)
    (around : Surroundings) : Shape :=
  match kind with
  | logicBoolean => .value booleanCheck
  | logicNegate => (Shape.value booleanCheck).withSockets [.value "BOOL" booleanCheck]
  | logicCompare => (Shape.value booleanCheck).withSockets [.value "A" .any, .value "B" .any]
  | logicOperation =>
    (Shape.value booleanCheck).withSockets [.value "A" booleanCheck, .value "B" booleanCheck]
  | mathNumber => .value numberCheck
  | mathAdd | mathMultiply =>
    (Shape.value numberCheck).withSockets (numbered "NUM" numberCheck (mutation.count "items" 2))
  | mathSubtract | mathDivision | mathPower =>
    (Shape.value numberCheck).withSockets [.value "A" numberCheck, .value "B" numberCheck]
  | mathCompare =>
    (Shape.value booleanCheck).withSockets [.value "A" numberCheck, .value "B" numberCheck]
  | mathSingle => (Shape.value numberCheck).withSockets [.value "NUM" numberCheck]
  | mathRandomInt =>
    (Shape.value numberCheck).withSockets [.value "FROM" numberCheck, .value "TO" numberCheck]
  | text => .value textCheck
  | textJoin =>
    (Shape.value textCheck).withSockets (numbered "ADD" textCheck (mutation.count "items" 2))
  | textLength => (Shape.value numberCheck).withSockets [.value "VALUE" textCheck]
  | textIsEmpty => (Shape.value booleanCheck).withSockets [.value "VALUE" textCheck]
  | textSplit =>
    -- Splitting at any of several texts takes them as a list.
    let separator :=
      if fields.get? "OP" = some "SPLITATFIRSTOFANY" || fields.get? "OP" = some "SPLITATANY" then
        listCheck
      else textCheck
    (Shape.value listCheck).withSockets [.value "TEXT" textCheck, .value "AT" separator]
  | listsCreateWith =>
    (Shape.value listCheck).withSockets (numbered "ADD" .any (mutation.count "items" 2))
  | listsAddItems =>
    Shape.statement.withSockets
      (.value "LIST" listCheck :: numbered "ITEM" .any (mutation.count "items" 1))
  | listsLength => (Shape.value numberCheck).withSockets [.value "LIST" listCheck]
  | controlsIf => Shape.statement.withSockets (branchSockets mutation)
  | controlsWhile => Shape.statement.withSockets [.value "TEST" booleanCheck, .statement "DO"]
  | controlsForRange =>
    Shape.statement.withSockets [.value "START" numberCheck, .value "END" numberCheck,
      .value "STEP" numberCheck, .statement "DO"]
  | controlsForEach => Shape.statement.withSockets [.value "LIST" listCheck, .statement "DO"]
  -- Definitions and handlers stand on their own.
  | globalDeclaration => Shape.topLevel.withSockets [.value "VALUE" .any]
  | lexicalVariableGet => .value .any
  | lexicalVariableSet => Shape.statement.withSockets [.value "VALUE" .any]
  | localDeclarationStatement =>
    Shape.statement.withSockets (localSockets fields mutation ++ [.statement "STACK"])
  | localDeclarationExpression =>
    (Shape.value .any).withSockets (localSockets fields mutation ++ [.value "RETURN" .any])
  | proceduresDefNoReturn => Shape.topLevel.withSockets [.statement "STACK"]
  | proceduresDefReturn => Shape.topLevel.withSockets [.value "RETURN" .any]
  | proceduresCallNoReturn => Shape.statement.withSockets (argumentSockets fields mutation around)
  | proceduresCallReturn => (Shape.value .any).withSockets (argumentSockets fields mutation around)
  | componentEvent => Shape.topLevel.withSockets [.statement "DO"]
  | componentMethod => methodShape mutation around
  | componentSetGet => propertyShape mutation around
  | componentComponentBlock =>
    .value (.oneOf [(mutation.attribute? "component_type").getD "Component"])

end BlockKind

end QuickEntry
