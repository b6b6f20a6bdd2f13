import AvatarPool.Json.Value
import AvatarPool.Text.Quoted

/-! # Faults of a typed reading

Reading a value of a known type goes from left to right and stops at the first fault.  A text that
is no JSON at that point is `malformed`; a JSON value of the wrong kind, a missing or repeated
member and an unknown variant are told apart, each with its own wording. -/

namespace AvatarPool.Json

/-- A value found where another kind was expected. -/
inductive Found where
  | null
  | boolean (b : Bool)
  | number (n : Number)
  | string (s : String)
  | sequence
  | map
  deriving DecidableEq, Repr

def Found.text : Found → String
  | null => "null"
  | boolean b => "boolean `" ++ (if b then "true" else "false") ++ "`"
  | number (.natural n) => "integer `" ++ toString n ++ "`"
  | number (.negative n) => "integer `-" ++ toString n ++ "`"
  | number (.real negative m) =>
    "floating point `" ++ (if negative then "-" else "") ++ m.text ++ "`"
  | string s => "string " ++ Text.quoted s
  | sequence => "sequence"
  | map => "map"

inductive DecodeError where
  | malformed
  | missingField (name : String)
  | duplicateField (name : String)
  | unknownVariant (name : String) (expected : List String)
  | invalidType (found : Found) (expected : String)
  | invalidLength (length : Nat) (expected : String)
  | noVariant (type : String)
  deriving DecidableEq, Repr

/-- The variants to choose from, each in backquotes. -/
def alternatives (names : List String) : String :=
  match names.map fun n => "`" ++ n ++ "`" with
  | [] => "nothing"
  | [a] => a
  | [a, b] => a ++ " or " ++ b
  | many => "one of " ++ String.intercalate ", " many

/-- **The wording** of a fault. -/
def DecodeError.message : DecodeError → String
  | malformed => "malformed JSON"
  | missingField name => "missing field `" ++ name ++ "`"
  | duplicateField name => "duplicate field `" ++ name ++ "`"
  | unknownVariant name expected =>
    "unknown variant `" ++ name ++ "`, expected " ++ alternatives expected
  | invalidType found expected => "invalid type: " ++ found.text ++ ", expected " ++ expected
  | invalidLength length expected =>
    "invalid length " ++ toString length ++ ", expected " ++ expected
  | noVariant type => "data did not match any variant of untagged enum " ++ type

/-- The fault of a token that starts a value of the wrong kind. -/
def mismatch (expected : String) : Token → DecodeError
  | .null => .invalidType .null expected
  | .truth b => .invalidType (.boolean b) expected
  | .number n =>
    match n.value? with
    | some v => .invalidType (.number v) expected
    | none => .malformed
  | .text pieces =>
    match joined? pieces with
    | some s => .invalidType (.string s) expected
    | none => .malformed
  | .openBracket => .invalidType .sequence expected
  | .openBrace => .invalidType .map expected
  | _ => .malformed

/-- The string of a text token; `expected` words the fault of any other value. -/
def asString (expected : String) : Token → Except DecodeError String
  | .text pieces =>
    match joined? pieces with
    | some s => .ok s
    | none => .error .malformed
  | t => .error (mismatch expected t)

/-- One of several named values. -/
structure Variants (α : Type) where
  ofName? : String → Option α
  names : List String

def Variants.read {α : Type} (v : Variants α) (name : String) : Except DecodeError α :=
  match v.ofName? name with
  | some a => .ok a
  | none => .error (.unknownVariant name v.names)

/-- Reads a variant without content: its name, or an object of that one name with `null`.  A name
of an object is a string, so anything else in its place is no JSON. -/
def readVariant {α : Type} (v : Variants α) : List Token → Except DecodeError (α × List Token)
  | [] => .error .malformed
  | .openBrace :: rest =>
    match rest with
    | .text pieces :: rest => do
      let name ← asString "variant identifier" (.text pieces)
      let a ← v.read name
      match rest with
      | .colon :: .null :: .closeBrace :: rest => .ok (a, rest)
      | .colon :: .null :: _ => .error .malformed
      | .colon :: t :: _ => .error (mismatch "unit" t)
      | _ => .error .malformed
    | _ => .error .malformed
  | .text pieces :: rest => do
    let name ← asString "variant identifier" (.text pieces)
    let a ← v.read name
    .ok (a, rest)
  | _ => .error .malformed

theorem readVariant_length {α : Type} {v : Variants α} {ts : List Token} {r : α × List Token}
    (h : readVariant v ts = .ok r) : r.2.length < ts.length := by
  unfold readVariant at h
  split at h
  · cases h
  · split at h
    · rename_i pieces rest
      cases hk : asString "variant identifier" (.text pieces) with
      | error e => rw [hk] at h; cases h
      | ok name =>
        cases hv : v.read name with
        | error e => rw [hk] at h; simp only [bind, Except.bind, hv] at h; cases h
        | ok a =>
          rw [hk] at h
          simp only [bind, Except.bind, hv] at h
          split at h <;> cases h
          simp only [List.length_cons]
          omega
    · cases h
  · rename_i pieces rest
    cases hk : asString "variant identifier" (.text pieces) with
    | error e => rw [hk] at h; cases h
    | ok name =>
      cases hv : v.read name with
      | error e => rw [hk] at h; simp only [bind, Except.bind, hv] at h; cases h
      | ok a =>
        rw [hk] at h
        simp only [bind, Except.bind, hv] at h
        cases h
        simp
  · cases h

/-- Steps over the colon after a key. -/
def afterColon : List Token → Except DecodeError (List Token)
  | .colon :: rest => .ok rest
  | _ => .error .malformed

theorem afterColon_length {ts rest : List Token} (h : afterColon ts = .ok rest) :
    rest.length < ts.length := by
  unfold afterColon at h
  split at h
  · cases h; simp
  · cases h

/-- A member may come once. -/
def once {α : Type} (name : String) (seen : Option α) : Except DecodeError Unit :=
  match seen with
  | none => .ok ()
  | some _ => .error (.duplicateField name)

/-- Reads the colon and the value of a member that may come once, and puts the value in its
place. -/
def readOnce {α σ : Type} (name : String) (seen : Option α)
    (read : List Token → Except DecodeError (α × List Token)) (place : α → σ) (ts : List Token) :
    Except DecodeError (σ × List Token) :=
  match once name seen with
  | .error e => .error e
  | .ok () =>
    match afterColon ts with
    | .error e => .error e
    | .ok ts => (read ts).map fun (a, rest) => (place a, rest)

theorem map_length {α σ : Type} {x : Except DecodeError (α × List Token)} {f : α → σ} {n : Nat}
    (hx : ∀ p, x = .ok p → p.2.length < n) {r : σ × List Token}
    (h : (x.map fun (a, rest) => (f a, rest)) = .ok r) : r.2.length < n := by
  cases x with
  | error e => cases h
  | ok p => cases h; exact hx p rfl

theorem readOnce_length {α σ : Type} {name : String} {seen : Option α}
    {read : List Token → Except DecodeError (α × List Token)} {place : α → σ} {ts : List Token}
    (hread : ∀ ts p, read ts = .ok p → p.2.length < ts.length)
    {r : σ × List Token} (h : readOnce name seen read place ts = .ok r) :
    r.2.length < ts.length := by
  unfold readOnce at h
  split at h
  · cases h
  · split at h
    · cases h
    · rename_i hc
      exact Nat.lt_trans (map_length (hread _) h) (afterColon_length hc)

/-- Reads a string value. -/
def readString : List Token → Except DecodeError (String × List Token)
  | [] => .error .malformed
  | t :: rest => (asString "a string" t).map fun s => (s, rest)

theorem readString_length {ts : List Token} {r : String × List Token}
    (h : readString ts = .ok r) : r.2.length < ts.length := by
  cases ts with
  | nil => cases h
  | cons t rest =>
    simp only [readString] at h
    cases hs : asString "a string" t with
    | error e => rw [hs] at h; cases h
    | ok s => rw [hs] at h; cases h; simp

/-- A whole text holds one value: nothing may follow what `read` takes. -/
def whole {α : Type} (read : List Token → Except DecodeError (α × List Token)) (text : String) :
    Except DecodeError α := do
  let (a, rest) ← read (tokens text)
  match rest with
  | [] => .ok a
  | _ :: _ => .error .malformed

end AvatarPool.Json
