import RefScript.Command

namespace RefScript

/-!
# Renaming and moving commands

Commands hold names and positions, and can be given others throughout: in the
names they use, in parameters and arguments, and in the bodies that they hold.
-/

mutual

/-- The names of the variables in a command: what it uses, its parameters and its arguments. -/
def Command.variables : Command → List String
  | .declare _ name _ | .allocate name _ | .assign name _ _ | .input name _ | .print name _ =>
      [name]
  | .copy target source _ => [target, source]
  | .block body _ | .frame body _ => variablesIn body
  | .function _ formals body _ => formals ++ variablesIn body
  | .call _ actuals _ => actuals

/-- The names of the variables in commands. -/
def variablesIn : List Command → List String
  | [] => []
  | command :: rest => command.variables ++ variablesIn rest

end

theorem variablesIn_eq_flatMap (commands : List Command) :
    variablesIn commands = commands.flatMap Command.variables := by
  induction commands with
  | nil => rfl
  | cons command rest inductionHypothesis =>
      rw [variablesIn, inductionHypothesis, List.flatMap_cons]

mutual

/-- The command with other names for variables and functions, at other positions. -/
def Command.rename
    (names functions : String → String) (place : Position → Position) :
    Command → Command
  | .declare kind name position => .declare kind (names name) (place position)
  | .allocate name position => .allocate (names name) (place position)
  | .assign name value position => .assign (names name) value (place position)
  | .copy target source position =>
      .copy (names target) (names source) (place position)
  | .input name position => .input (names name) (place position)
  | .print name position => .print (names name) (place position)
  | .block body position => .block (renameAll names functions place body) (place position)
  | .frame body position => .frame (renameAll names functions place body) (place position)
  | .function name formals body position =>
      .function (functions name) (formals.map names)
        (renameAll names functions place body) (place position)
  | .call name actuals position =>
      .call (functions name) (actuals.map names) (place position)

/-- Each of the commands with other names, at other positions. -/
def renameAll
    (names functions : String → String) (place : Position → Position) :
    List Command → List Command
  | [] => []
  | command :: rest =>
      command.rename names functions place :: renameAll names functions place rest

end

variable {names functions : String → String} {place : Position → Position}

theorem renameAll_eq_map (commands : List Command) :
    renameAll names functions place commands =
      commands.map (Command.rename names functions place) := by
  induction commands with
  | nil => rfl
  | cons command rest inductionHypothesis => rw [renameAll, inductionHypothesis, List.map_cons]

theorem Command.position_rename (command : Command) :
    (command.rename names functions place).position = place command.position := by
  cases command <;> rfl

theorem Command.isFunction_rename (command : Command) :
    (command.rename names functions place).isFunction = command.isFunction := by
  cases command <;> rfl

mutual

theorem Command.rename_id (command : Command) : command.rename id id id = command := by
  cases command with
  | block body position | frame body position =>
      simp only [Command.rename, renameAll_id body, id]
  | function name formals body position =>
      simp only [Command.rename, renameAll_id body, id, List.map_id]
  | call name actuals position =>
      simp only [Command.rename, id, List.map_id]
  | _ =>
      rfl

/-- Commands that keep their names and positions stay the same. -/
theorem renameAll_id (commands : List Command) : renameAll id id id commands = commands := by
  cases commands with
  | nil => rfl
  | cons command rest => rw [renameAll, command.rename_id, renameAll_id rest]

end

end RefScript
