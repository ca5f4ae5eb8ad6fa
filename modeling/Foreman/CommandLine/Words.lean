import Foreman.Text.Search

/-!
# Words of a command line

A level of a command line takes options, flags and positional words, and may hand the rest over to a
subcommand. An option takes its value from behind an equals sign or from the next word; that word is
looked at only when the level goes on.
-/

namespace Foreman.CommandLine

/-- What a level takes. -/
structure Grammar where
  /-- The options that take a value, and which values they take. -/
  options : List (String × (String → Bool))
  flags : List String
  positionals : Nat
  subcommands : List String
  hasVersion : Bool

/-- Why the words are not read to their end. -/
inductive Stop where
  | help
  | version
  | misuse
deriving DecidableEq, Repr

/-- What has been read. -/
structure Words where
  options : List (String × String)
  flags : List String
  positionals : List String
  /-- The last option, if its value is still to come or to be looked at. -/
  held : Option (String × Option String)

namespace Words

def empty : Words := ⟨[], [], [], none⟩

def option? (r : Words) (name : String) : Option String := r.options.lookup name

/-- Takes the value of an option, which may be given once. -/
def accept (g : Grammar) (r : Words) (name value : String) : Except Stop Words :=
  match g.options.lookup name with
  | some allowed =>
    if (r.option? name).isNone && allowed value then
      .ok { r with options := (name, value) :: r.options }
    else .error .misuse
  | none => .error .misuse

/-- Takes the option that is held. -/
def settle (g : Grammar) (r : Words) : Except Stop Words :=
  match r.held with
  | none => .ok r
  | some (_, none) => .error .misuse
  | some (name, some value) => { r with held := none }.accept g name value

def raise (g : Grammar) (r : Words) (name : String) : Except Stop Words := do
  let r ← r.settle g
  if r.flags.contains name then throw .misuse
  else return { r with flags := name :: r.flags }

/-- A word that stops the reading, if everything before it is right. -/
def stop (g : Grammar) (r : Words) (s : Stop) : Except Stop Words := do
  let _ ← r.settle g
  throw s

/-- A name without a value. -/
def bare (g : Grammar) (r : Words) (name : String) : Except Stop Words :=
  if name = "help" then r.stop g .help
  else if name = "version" && g.hasVersion then r.stop g .version
  else if g.flags.contains name then r.raise g name
  else if (g.options.lookup name).isSome then do
    let r ← r.settle g
    return { r with held := some (name, none) }
  else .error .misuse

/-- A name with a value behind an equals sign. -/
def joined (g : Grammar) (r : Words) (name value : String) : Except Stop Words := do
  let r ← r.settle g
  r.accept g name value

def letter (g : Grammar) (r : Words) (c : Char) : Except Stop Words :=
  if c = 'h' then r.stop g .help
  else if c = 'V' && g.hasVersion then r.stop g .version
  else .error .misuse

def positional (g : Grammar) (r : Words) (word : String) : Except Stop Words := do
  let r ← r.settle g
  if r.positionals.length < g.positionals then
    return { r with positionals := r.positionals ++ [word] }
  else throw .misuse

/-- A word that names no subcommand. -/
def word (g : Grammar) (r : Words) (w : String) : Except Stop Words :=
  match w.toList with
  | '-' :: '-' :: rest =>
    match Text.cut? ['='] rest with
    | some (name, value) => r.joined g (String.ofList name) (String.ofList value)
    | none => r.bare g (String.ofList rest)
  | '-' :: c :: _ => r.letter g c
  | _ =>
    match r.held with
    | some (name, none) => .ok { r with held := some (name, some w) }
    | _ => r.positional g w

def awaitsValue (r : Words) : Bool :=
  match r.held with
  | some (_, none) => true
  | _ => false

/-- Reads words up to a subcommand; behind two dashes there are only positional words. What is left
are the subcommand and the words behind it. -/
def read (g : Grammar) : Bool → Words → List String → Except Stop (Words × List String)
  | _, r, [] => .ok (r, [])
  | true, r, w :: ws => do
    let r ← r.positional g w
    read g true r ws
  | false, r, w :: ws =>
    if !r.awaitsValue && g.subcommands.contains w then .ok (r, w :: ws)
    else if w = "--" then read g true r ws
    else do
      let r ← r.word g w
      read g false r ws

/-- Reads all words of a level that has no subcommands. -/
def readAll (g : Grammar) (ws : List String) : Except Stop Words := do
  let (r, _) ← read g false empty ws
  let r ← r.settle g
  if r.positionals.length < g.positionals then throw .misuse
  else return r

end Words

end Foreman.CommandLine
