/-!
# Options

The words of a command line are options, their values, and commands. An option is a word behind two
hyphens, or a letter behind one; letters may share a hyphen. A value follows its option as the next
word, behind an equals sign, or, for a letter, at once. Words behind a lone pair of hyphens are
neither options nor commands.

A value that is a word of its own is looked at only when the next option is complete or the words
end, so a fault in the words behind it can come first.
-/

namespace SparkTuner.CommandLine

/-- Why a command line is not run. -/
inductive UsageError where
  /-- The user asks for help. -/
  | help
  /-- The user asks for the version. -/
  | version
  /-- There are no words at all. -/
  | nothingGiven
  | unknownCommand
  | missingCommand
  /-- An option that has to be given is missing. -/
  | missingOption
  /-- A value is missing, or empty where it may not be. -/
  | missingValue
  | badValue
  | unknownArgument
  /-- An option is given twice. -/
  | repeated
  /-- An option without a value is given one. -/
  | unexpectedValue
  deriving Repr, DecidableEq

/-- What the process ends with. -/
def UsageError.exitCode : UsageError → Nat
  | .help | .version => 0
  | _ => 2

/-- The name of an option. -/
inductive OptionName where
  | letter (c : Char)
  | word (s : String)
  deriving Repr, DecidableEq

/-- Puts the value of an option into what is known. -/
abbrev Setter (α : Type) := String → α → Except UsageError α

/-- What an option does. -/
inductive Effect (α : Type) where
  | help
  | version
  | switch (set : α → Except UsageError α)
  | valued (set : Setter α)

/-- The options and commands that are known. -/
structure Grammar (α : Type) where
  option? : OptionName → Option (Effect α)
  commands : List String := []

/-- An option whose value is not put in yet. -/
structure Pending (α : Type) where
  set : Setter α
  value : Option String := none

/-- What is known from the words so far. -/
structure Progress (α : Type) where
  known : α
  pending : Option (Pending α) := none

/-- Where the reading of options ended. -/
structure Stop (α : Type) where
  progress : Progress α
  /-- The command that was met, and the words behind it. -/
  command : Option (String × List String) := none

namespace Progress

variable {α : Type}

/-- Whether the next word may be a value. -/
def awaitsValue (p : Progress α) : Bool := p.pending.any (·.value.isNone)

/-- What is known with the pending value put in. -/
def settle (p : Progress α) : Except UsageError α :=
  match p.pending with
  | none => .ok p.known
  | some ⟨_, none⟩ => .error .missingValue
  | some ⟨set, some value⟩ => set value p.known

/-- Applies an option that has no value. -/
def apply (p : Progress α) : Effect α → Except UsageError (Progress α)
  | .help => p.settle.bind fun _ => .error .help
  | .version => p.settle.bind fun _ => .error .version
  | .switch set => p.settle.bind fun known => (set known).map ({ known := · })
  | .valued set => p.settle.map ({ known := ·, pending := some ⟨set, none⟩ })

/-- Applies an option whose value is attached to it. -/
def applyWith (p : Progress α) (value : String) :
    Effect α → Except UsageError (Progress α)
  | .valued set => p.settle.bind fun known => (set value known).map ({ known := · })
  | _ => .error .unexpectedValue

/-- Applies the letters behind one hyphen. -/
def letters (g : Grammar α) (p : Progress α) : List Char → Except UsageError (Progress α)
  | [] => .ok p
  | c :: cs =>
    match g.option? (.letter c) with
    | none => .error .unknownArgument
    | some (.valued set) =>
      match cs with
      | [] => p.apply (.valued set)
      | '=' :: value => p.applyWith (String.ofList value) (.valued set)
      | value => p.applyWith (String.ofList value) (.valued set)
    | some effect => (p.apply effect).bind fun p => p.letters g cs

/-- Applies the option behind two hyphens. -/
def word (g : Grammar α) (p : Progress α) (body : List Char) : Except UsageError (Progress α) :=
  match g.option? (.word (String.ofList (body.takeWhile (· != '=')))) with
  | none => .error .unknownArgument
  | some effect =>
    match body.dropWhile (· != '=') with
    | [] => p.apply effect
    | _ :: value => p.applyWith (String.ofList value) effect

end Progress

namespace Grammar

variable {α : Type}

/-- The fault of a word that is no option, value or command. -/
def stray (g : Grammar α) : UsageError :=
  if g.commands = [] then .unknownArgument else .unknownCommand

/-- Reads words up to a command or their end. -/
def read (g : Grammar α) (p : Progress α) : List String → Except UsageError (Stop α)
  | [] => .ok ⟨p, none⟩
  | arg :: rest =>
    if !p.awaitsValue && g.commands.contains arg then .ok ⟨p, some (arg, rest)⟩
    else
      match arg.toList with
      | ['-', '-'] =>
        match rest with
        | [] => .ok ⟨p, none⟩
        | word :: _ =>
          .error (if g.commands.contains word then .unknownArgument else g.stray)
      | '-' :: '-' :: body => (p.word g body).bind fun p => g.read p rest
      | '-' :: c :: cs => (p.letters g (c :: cs)).bind fun p => g.read p rest
      | _ =>
        match p.pending with
        | some ⟨set, none⟩ => g.read { p with pending := some ⟨set, some arg⟩ } rest
        | _ => .error g.stray

/-- Reads all words, none of which is a command. -/
def readAll (g : Grammar α) (blank : α) (args : List String) : Except UsageError α :=
  (g.read { known := blank } args).bind fun stop => stop.progress.settle

end Grammar

end SparkTuner.CommandLine
