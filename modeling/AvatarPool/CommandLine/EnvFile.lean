import AvatarPool.CommandLine.Environment
import AvatarPool.Text.Alphanumeric
import AvatarPool.Text.Blank
import AvatarPool.Text.Utf8

/-! # Files of environment variables

A file of lines `NAME=value` that adds variables to an environment and replaces none.  A value may
be quoted: single quotes take everything as it is, double quotes and bare text know backslash
escapes and put in the values of variables, written `$name` or with the name in braces.  A quoted
value may run over several lines.  A number sign after a blank starts a comment.  The first line
that cannot be read ends the file; what came before it stays. -/

namespace AvatarPool.CommandLine

namespace EnvFile

/-! # Lines -/

/-- Where a reader stands within the lines of one entry. -/
inductive Standing where
  | plain
  /-- After a blank, where a comment can start. -/
  | blank
  | escape
  | single
  | singleEscape
  | double
  | doubleEscape
  deriving DecidableEq, Repr

/-- Outside quotes. -/
def Standing.outside (c : Char) : Standing :=
  if c = '\\' then .escape else if c = '"' then .double else if c = '\'' then .single else .plain

/-- Where the reader stands after a character, unless a comment starts with it. -/
def Standing.next (s : Standing) (c : Char) : Option Standing :=
  match s with
  | plain =>
    if Text.isBlankChar c && c != '\n' && c != '\r' then some blank else some (outside c)
  | blank => if c = '#' then none else some (outside c)
  | escape => some plain
  | single => some (if c = '\\' then singleEscape else if c = '\'' then plain else single)
  | singleEscape => some single
  | double => some (if c = '\\' then doubleEscape else if c = '"' then plain else double)
  | doubleEscape => some double

/-- Where the reader stands after a line; or, if a comment starts in it, what stands before the
comment.  The part read before is `before`, in reverse. -/
def scan (s : Standing) (before : List Char) : List Char → Except (List Char) Standing
  | [] => .ok s
  | c :: rest =>
    match s.next c with
    | some s => scan s (c :: before) rest
    | none => .error before.reverse

/-- Lines, each with its line feed, the last one perhaps without.  The line so far is `line`, in
reverse. -/
def cut {α : Type} [DecidableEq α] (feed : α) (line : List α) : List α → List (List α)
  | [] => if line.isEmpty then [] else [line.reverse]
  | c :: rest =>
    if c = feed then (c :: line).reverse :: cut feed [] rest else cut feed (c :: line) rest

/-- The text of a file as far as its lines are valid UTF-8. -/
def readable (bytes : List UInt8) : String :=
  String.join ((((cut 10 [] bytes).map Text.ofUtf8?).takeWhile Option.isSome).filterMap id)

/-- A line without its line feed and the carriage return before it. -/
def chomp (line : List Char) : List Char :=
  match line.reverse with
  | '\n' :: '\r' :: before => before.reverse
  | '\n' :: before => before.reverse
  | _ => line

/-- Whether the first character that is not blank is a number sign. -/
def isComment (line : List Char) : Bool := (line.dropWhile Text.isBlankChar).head? == some '#'

/-- The lines of a file as entries, each of one or more lines.  The lines `held` belong to an entry
that is not complete, in which the reader stands at `s`; one that the file does not complete is
`none`. -/
def entries (s : Standing) (held : List Char) : List (List Char) → List (Option (List Char))
  | [] => if s = .plain then [] else [none]
  | line :: rest =>
    if isComment (held ++ line) then entries .plain [] rest
    else
      match scan s [] line with
      | .error before => some (held ++ before) :: entries .plain [] rest
      | .ok .plain => some (chomp (held ++ line)) :: entries .plain [] rest
      | .ok s => entries s (held ++ line) rest

/-! # Values -/

/-- What a reader of a value is within. -/
inductive Within where
  | text
  | single
  /-- After a backslash. -/
  | escape
  /-- In the name of a variable without braces, so far in reverse. -/
  | name (soFar : List Char)
  /-- In the name of a variable in braces, so far in reverse. -/
  | braced (soFar : List Char)
  /-- After a blank that ends the value. -/
  | tail
  deriving DecidableEq, Repr

/-- The value of a variable, empty if there is none. -/
def lookup (env : Environment) (name : List Char) : List Char :=
  ((env.get? (String.ofList name.reverse)).getD "").toList

/-- The character that a backslash before `c` stands for. -/
def unescape? (c : Char) : Option Char :=
  if c = 'n' then some '\n'
  else if c = '\\' || c = '\'' || c = '"' || c = '$' || c = ' ' then some c
  else none

/-- Reads a value on.  `quoted` tells whether double quotes are open, and `out` is the value so far
in reverse. -/
def valueFrom (env : Environment) (quoted : Bool) (w : Within) (out : List Char) :
    List Char → Option (List Char)
  | [] =>
    match w, quoted with
    | .single, _ => none
    | .braced _, _ => none
    | _, true => none
    | .name soFar, false => some (out.reverse ++ lookup env soFar)
    | _, false => some out.reverse
  | c :: rest =>
    match w with
    | .tail =>
      if c = ' ' || c = '\t' then valueFrom env quoted .tail out rest
      else if c = '#' then some out.reverse
      else none
    | .escape =>
      match unescape? c with
      | some d => valueFrom env quoted .text (d :: out) rest
      | none => none
    | .single =>
      if c = '\'' then valueFrom env quoted .text out rest
      else valueFrom env quoted .single (c :: out) rest
    | .name soFar =>
      let out' := (lookup env soFar).reverse ++ out
      if Text.isAlphanumeric c then valueFrom env quoted (.name (c :: soFar)) out rest
      else if c = '\x7b' && soFar.isEmpty then valueFrom env quoted (.braced []) out rest
      else if c = '$' then valueFrom env quoted (.name []) out' rest
      else valueFrom env quoted .text (c :: out') rest
    | .braced soFar =>
      if c = '\x7d' then valueFrom env quoted .text ((lookup env soFar).reverse ++ out) rest
      else valueFrom env quoted (.braced (c :: soFar)) out rest
    | .text =>
      if c = '$' then valueFrom env quoted (.name []) out rest
      else if c = '\\' then valueFrom env quoted .escape out rest
      else if c = '"' then valueFrom env (!quoted) .text out rest
      else if quoted then valueFrom env quoted .text (c :: out) rest
      else if c = '\'' then valueFrom env quoted .single out rest
      else if c = ' ' || c = '\t' then valueFrom env quoted .tail out rest
      else valueFrom env quoted .text (c :: out) rest

/-- **Reads a value**; the variables it names are those of `env`. -/
def value? (env : Environment) (cs : List Char) : Option (List Char) :=
  if isComment cs then some [] else valueFrom env false .text [] cs

/-! # Entries -/

/-- A name starts with a letter or an underscore, and goes on with letters, digits, underscores and
dots, all ASCII: the name, and what follows it. -/
def name? (cs : List Char) : Option (List Char × List Char) :=
  match cs with
  | [] => none
  | c :: _ =>
    let inName (c : Char) : Bool := c.isAlphanum || c = '_' || c = '.'
    if c.isAlpha || c = '_' then some (cs.takeWhile inName, cs.dropWhile inName) else none

def skipBlank (cs : List Char) : List Char := cs.dropWhile Text.isBlankChar

/-- What follows an equals sign. -/
def afterEquals? : List Char → Option (List Char)
  | '=' :: rest => some rest
  | _ => none

/-- The name of an entry and what follows its equals sign.  The word `export` may stand in front,
and is itself a name if an equals sign follows it. -/
def assignment? (cs : List Char) : Option (List Char × List Char) := do
  let (name, rest) ← name? cs
  match afterEquals? (skipBlank rest) with
  | some value => some (name, value)
  | none =>
    if name = "export".toList then do
      let (name, rest) ← name? (skipBlank rest)
      let value ← afterEquals? (skipBlank rest)
      some (name, value)
    else none

/-- What an entry says. -/
inductive Reading where
  | nothing
  | variable (name value : String)
  | unreadable
  deriving DecidableEq, Repr

/-- **Reads an entry.** -/
def readEntry (env : Environment) (entry : List Char) : Reading :=
  let cs := skipBlank ((skipBlank entry.reverse).reverse)
  if cs.isEmpty || isComment cs then .nothing
  else
    match assignment? cs with
    | none => .unreadable
    | some (name, rest) =>
      match value? env (skipBlank rest) with
      | none => .unreadable
      | some value => .variable (String.ofList name) (String.ofList value)

/-- Adds the variables of entries to an environment, up to the first entry that cannot be read.  A
value with a NUL has no place in an environment: `none`. -/
def addEntries (env : Environment) : List (Option (List Char)) → Option Environment
  | [] => some env
  | none :: _ => some env
  | some entry :: rest =>
    match readEntry env entry with
    | .nothing => addEntries env rest
    | .unreadable => some env
    | .variable name value =>
      if (env.get? name).isSome then addEntries env rest
      else if value.toList.contains '\x00' then none
      else addEntries (env ++ [(name, value)]) rest

/-- The text of a file without the mark that may stand first in it. -/
def dropMark : List Char → List Char
  | c :: rest => if c = '\ufeff' then rest else c :: rest
  | [] => []

/-- The names after dollar signs: every variable whose value the file can ask for is among them. -/
def mentioned : List Char → List String
  | [] => []
  | c :: rest =>
    if c = '$' then
      match rest with
      | '\x7b' :: name => String.ofList (name.takeWhile (· != '\x7d')) :: mentioned rest
      | name => String.ofList (name.takeWhile Text.isAlphanumeric) :: mentioned rest
    else mentioned rest

end EnvFile

/-- **Adds the variables of a file** to an environment. -/
def Environment.addFile (env : Environment) (text : String) : Option Environment :=
  let lines := EnvFile.cut '\n' [] (EnvFile.dropMark text.toList)
  EnvFile.addEntries env (EnvFile.entries .plain [] lines)

end AvatarPool.CommandLine
