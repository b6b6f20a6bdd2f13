/-! # Environments

The variables that a program is started with.  An environment is kept as a list of entries, each a
name, an equals sign and a value in one text, and is searched as such. -/

namespace AvatarPool.CommandLine

/-- Variables with their values. -/
abbrev Environment := List (String × String)

namespace Environment

/-- What follows `start` in a text that begins with it. -/
def after? (start text : List Char) : Option (List Char) :=
  if start.isPrefixOf text then some (text.drop start.length) else none

/-- **The value of a variable**: what follows the name and an equals sign in the first entry that
begins with both.  A name with an equals sign of its own can so reach into the value of another
variable; an empty name has no value. -/
def get? (env : Environment) (name : String) : Option String :=
  let value (entry : String × String) : Option (List Char) :=
    after? (name ++ "=").toList (entry.1 ++ "=" ++ entry.2).toList
  if name.isEmpty then none else (env.findSome? value).map String.ofList

end Environment

end AvatarPool.CommandLine
